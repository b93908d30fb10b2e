import RelationalAccess.Text.Reader

/-!
Days of the proleptic Gregorian calendar, their count from the first of January
1970, and their text.
-/

namespace RelationalAccess

namespace Calendar

def isLeap (year : Int) : Bool :=
  decide (year % 4 = 0) && (decide (year % 100 ≠ 0) || decide (year % 400 = 0))

def daysInMonth (year : Int) (month : Nat) : Nat :=
  match month with
  | 4 | 6 | 9 | 11 => 30
  | 2 => if isLeap year then 29 else 28
  | _ => 31

/-- A day that exists, in a year that the calendar covers. -/
def IsDay (year : Int) (month day : Nat) : Prop :=
  (-262143 ≤ year ∧ year ≤ 262142) ∧ (1 ≤ month ∧ month ≤ 12) ∧
    1 ≤ day ∧ day ≤ daysInMonth year month

instance (year : Int) (month day : Nat) : Decidable (IsDay year month day) := by
  unfold IsDay; infer_instance

/-- Days from 1970-01-01. Years are counted from March, so that the leap day is
the last of its year, in cycles of 400 years. -/
def daysFromCivil (year : Int) (month day : Nat) : Int :=
  let shifted := if month ≤ 2 then year - 1 else year
  let cycle := shifted / 400
  let yearOfCycle := shifted % 400
  let monthFromMarch : Int := Int.ofNat ((month + 9) % 12)
  let dayOfYear := (153 * monthFromMarch + 2) / 5 + Int.ofNat day - 1
  let dayOfCycle := yearOfCycle * 365 + yearOfCycle / 4 - yearOfCycle / 100 + dayOfYear
  cycle * 146097 + dayOfCycle - 719468

/-- The year, month and day that lie a number of days from 1970-01-01. -/
def civilFromDays (days : Int) : Int × Nat × Nat :=
  let shifted := days + 719468
  let cycle := shifted / 146097
  let dayOfCycle := shifted % 146097
  let yearOfCycle :=
    (dayOfCycle - dayOfCycle / 1460 + dayOfCycle / 36524 - dayOfCycle / 146096) / 365
  let dayOfYear := dayOfCycle - (365 * yearOfCycle + yearOfCycle / 4 - yearOfCycle / 100)
  let monthFromMarch := (5 * dayOfYear + 2) / 153
  let day := dayOfYear - (153 * monthFromMarch + 2) / 5 + 1
  let month := if monthFromMarch < 10 then monthFromMarch + 3 else monthFromMarch - 9
  let year := yearOfCycle + cycle * 400
  (if month ≤ 2 then year + 1 else year, month.toNat, day.toNat)

/-- Years of four digits stand alone; others have a sign and at least four digits. -/
def yearText (year : Int) : List Char :=
  if 0 ≤ year ∧ year ≤ 9999 then Numeral.decimalPadded 4 year.toNat
  else (if year < 0 then '-' else '+') :: Numeral.decimalPadded 4 year.natAbs

def civilText (year : Int) (month day : Nat) : List Char :=
  yearText year ++ '-' :: Numeral.decimalPadded 2 month ++ '-' :: Numeral.decimalPadded 2 day

/-- Reads a year: up to four digits, or any number of them after a sign. -/
def readYear : Reader Int := fun text =>
  match Blank.skip text with
  | '-' :: rest => (Reader.wholeNumber rest).map fun (year, left) => (-Int.ofNat year, left)
  | '+' :: rest => (Reader.wholeNumber rest).map fun (year, left) => (Int.ofNat year, left)
  | rest => (Reader.number 1 4 rest).map fun (year, left) => (Int.ofNat year, left)

/-- Reads a field of one or two digits, which white space may precede. -/
def readField : Reader Nat := do
  Reader.blanks
  Reader.number 1 2

end Calendar

/-- A day of the calendar. -/
structure Date where
  year : Int
  month : Nat
  day : Nat
  isDay : Calendar.IsDay year month day
  deriving DecidableEq

namespace Date

def of? (year : Int) (month day : Nat) : Option Date :=
  if isDay : Calendar.IsDay year month day then some ⟨year, month, day, isDay⟩ else none

/-- Days from 1970-01-01. -/
def toDays (date : Date) : Int := Calendar.daysFromCivil date.year date.month date.day

def text (date : Date) : String :=
  String.ofList (Calendar.civilText date.year date.month date.day)

/-- Reads year, month and day with hyphens between them. -/
def read : Reader Date := do
  let year ← Calendar.readYear
  Reader.exactly '-'
  let month ← Calendar.readField
  Reader.exactly '-'
  let day ← Calendar.readField
  (of? year month day : Option Date)

/-- The date that a whole text gives. -/
def ofText? (text : String) : Option Date := read.run? text

end Date

end RelationalAccess
