import RelationalAccess.Proofs.Sql.RoundTrip
import RelationalAccess.Proofs.Value.DayOrder

/-!
The order of what SQLite stores: in the years of four digits the texts of dates and moments,
compared character by character, are in the order of time. A moment in a text has no more than
its microseconds, and a leap second that is not the last of its minute has the text of a moment in
the second after it.
-/

namespace RelationalAccess

open Numeral

namespace Calendar

/-- Only these years are written without a sign, and in four digits. -/
def FourDigits (year : Int) : Prop := 0 ≤ year ∧ year ≤ 9999

variable {year otherYear : Int} {month day otherMonth otherDay : Nat}

instance : Decidable (FourDigits year) := inferInstanceAs (Decidable (_ ∧ _))

theorem compare_toNat (short : FourDigits year) (otherShort : FourDigits otherYear) :
    compare year.toNat otherYear.toNat = compare year otherYear := by
  unfold FourDigits at short otherShort
  refine ordering_eq ?_ ?_
  · rw [Nat.compare_eq_lt, Int.compare_eq_lt]
    omega
  · rw [Nat.compare_eq_eq, Int.compare_eq_eq]
    omega

theorem civilText_append (short : FourDigits year) (month day : Nat) (rest : List Char) :
    civilText year month day ++ rest =
      decimalPadded 4 year.toNat ++
        '-' :: (decimalPadded 2 month ++ '-' :: (decimalPadded 2 day ++ rest)) := by
  rw [civilText, yearText, if_pos (show 0 ≤ year ∧ year ≤ 9999 from short)]
  simp only [List.append_assoc, List.cons_append]

theorem InMonth.fits (inMonth : InMonth year month day) : month < 100 ∧ day < 100 := by
  have most := daysInMonth_le year month
  obtain ⟨⟨_, monthLe⟩, _, dayLe⟩ := inMonth
  omega

/-- Written days, before other texts, are compared as they are counted. -/
theorem compare_civilText (short : FourDigits year) (otherShort : FourDigits otherYear)
    (inMonth : InMonth year month day) (otherInMonth : InMonth otherYear otherMonth otherDay)
    (rest otherRest : List Char) :
    compare (civilText year month day ++ rest)
        (civilText otherYear otherMonth otherDay ++ otherRest) =
      (compare (daysFromCivil year month day)
        (daysFromCivil otherYear otherMonth otherDay)).then (compare rest otherRest) := by
  have years : year.toNat < 10000 ∧ otherYear.toNat < 10000 := by
    unfold FourDigits at short otherShort
    omega
  rw [civilText_append short, civilText_append otherShort,
    compare_decimalPadded (by decide) years.1 years.2, compare_cons_same,
    compare_decimalPadded (by decide) inMonth.fits.1 otherInMonth.fits.1, compare_cons_same,
    compare_decimalPadded (by decide) inMonth.fits.2 otherInMonth.fits.2,
    compare_toNat short otherShort, compare_daysFromCivil inMonth otherInMonth,
    Ordering.then_assoc, Ordering.then_assoc]

end Calendar

open Calendar

namespace Date

/-- The texts of dates are in the order of the dates. -/
theorem compare_text {first second : Date} (short : FourDigits first.year)
    (otherShort : FourDigits second.year) :
    compare first.text.toList second.text.toList = compare first.toDays second.toDays := by
  have compared := compare_civilText short otherShort first.isDay.2 second.isDay.2 [] []
  rw [List.append_nil, List.append_nil] at compared
  rw [text, text, String.toList_ofList, String.toList_ofList, compared]
  exact Ordering.then_eq

theorem text_inj {first second : Date} : first.text = second.text ↔ first = second := by
  refine ⟨fun same => ?_, fun same => same ▸ rfl⟩
  have isRead := ofText?_text first
  rw [same, ofText?_text] at isRead
  exact (Option.some.inj isRead).symm

end Date

namespace Moment

/-- Moments are in the order of their seconds, then of their nanoseconds. -/
def order (first second : Moment) : Ordering :=
  (compare first.seconds second.seconds).then (compare first.nanoseconds second.nanoseconds)

theorem order_eq_eq {first second : Moment} : first.order second = .eq ↔ first = second := by
  cases first
  cases second
  rw [order, Ordering.then_eq_eq, Int.compare_eq_eq, Nat.compare_eq_eq, mk.injEq]

/-- The moment that a stored text shows, which has only its microseconds. A leap second that is
not the last of its minute is shown as the second that follows. -/
def shown (moment : Moment) : Moment :=
  if moment.nanoseconds < 1000000000 ∨ moment.seconds % 60 = 59 then moment.toMicroseconds
  else
    { seconds := moment.seconds + 1
      nanoseconds := (moment.nanoseconds - 1000000000) / 1000 * 1000
      nanoseconds_lt := by
        have := moment.nanoseconds_lt
        omega }

/-- A regular moment is shown as itself, but for what is shorter than a microsecond. -/
theorem Regular.shown_eq {moment : Moment} (regular : moment.Regular) :
    moment.shown = moment.toMicroseconds :=
  if_pos regular.leap

/-- The fields of a moment give what its stored text shows. -/
structure ShownAs (moment : Moment) : Prop where
  seconds : moment.shown.seconds = moment.seconds / 86400 * 86400 +
    Int.ofNat (moment.fields.hour * 3600 + moment.fields.minute * 60 +
      min moment.fields.second 59)
  nanoseconds : moment.shown.nanoseconds =
    (if moment.fields.second = 60 then 1000000000 else 0) + moment.fields.nanosecond / 1000 * 1000

theorem shownAs (moment : Moment) : moment.ShownAs := by
  have bound := moment.nanoseconds_lt
  have seconds := moment.inDay.seconds
  have nanosecond := moment.inDay.nanosecond
  have last := moment.inDay.last
  have upTo := moment.inDay.second_le
  simp only [Int.ofNat_eq_natCast] at seconds
  constructor <;> unfold shown <;> split
  all_goals simp only [toMicroseconds, Int.ofNat_eq_natCast]
  · omega
  · omega
  · split <;> omega
  · split <;> omega

theorem inMonth_fields (moment : Moment) :
    InMonth moment.fields.year moment.fields.month moment.fields.day :=
  inMonth_civilFromDays _

theorem daysFromCivil_fields (moment : Moment) :
    daysFromCivil moment.fields.year moment.fields.month moment.fields.day =
      moment.seconds / 86400 :=
  daysFromCivil_civilFromDays _

/-- What is shown is in the order of the fields, the greatest first. -/
theorem order_shown (first second : Moment) :
    first.shown.order second.shown =
      (compare (first.seconds / 86400) (second.seconds / 86400)).then
        ((compare first.fields.hour second.fields.hour).then
          ((compare first.fields.minute second.fields.minute).then
            ((compare first.fields.second second.fields.second).then
              (compare (first.fields.nanosecond / 1000) (second.fields.nanosecond / 1000))))) := by
  have inDay := first.inDay
  have otherInDay := second.inDay
  have hour := inDay.hour_lt
  have minute := inDay.minute_lt
  have upTo := inDay.second_le
  have otherHour := otherInDay.hour_lt
  have otherMinute := otherInDay.minute_lt
  have otherUpTo := otherInDay.second_le
  have nanosecond := first.nanosecond_lt
  have otherNanosecond := second.nanosecond_lt
  rw [order, first.shownAs.seconds, second.shownAs.seconds, first.shownAs.nanoseconds,
    second.shownAs.nanoseconds]
  generalize first.seconds / 86400 = day, second.seconds / 86400 = otherDay
  -- a 60th second is the 59th with a second's nanoseconds more, so it comes after all of that
  refine ordering_eq ?_ ?_
  · simp only [Ordering.then_eq_lt, Int.compare_eq_lt, Int.compare_eq_eq, Nat.compare_eq_lt,
      Nat.compare_eq_eq, Int.ofNat_eq_natCast]
    split <;> split <;> omega
  · simp only [Ordering.then_eq_eq, Int.compare_eq_eq, Nat.compare_eq_eq, Int.ofNat_eq_natCast]
    split <;> split <;> omega

/-- The stored texts of moments are in the order of what they show. -/
theorem compare_storedText {first second : Moment} (short : FourDigits first.fields.year)
    (otherShort : FourDigits second.fields.year) :
    compare first.storedText.toList second.storedText.toList =
      first.shown.order second.shown := by
  have hour (moment : Moment) : moment.fields.hour < 100 :=
    Nat.lt_trans moment.inDay.hour_lt (by decide)
  have minute (moment : Moment) : moment.fields.minute < 100 :=
    Nat.lt_trans moment.inDay.minute_lt (by decide)
  have upTo (moment : Moment) : moment.fields.second < 100 :=
    Nat.lt_of_le_of_lt moment.inDay.second_le (by decide)
  have micro (moment : Moment) : moment.fields.nanosecond / 1000 < 1000000 := by
    have := moment.nanosecond_lt
    omega
  have days (rest otherRest : List Char) :
      compare (first.fields.dayText ++ rest) (second.fields.dayText ++ otherRest) =
        (compare (first.seconds / 86400) (second.seconds / 86400)).then
          (compare rest otherRest) := by
    rw [Fields.dayText, Fields.dayText, compare_civilText short otherShort first.inMonth_fields
      second.inMonth_fields, daysFromCivil_fields, daysFromCivil_fields]
  rw [toList_storedText, toList_storedText, days, compare_cons_same,
    compare_decimalPadded (by decide) (hour first) (hour second), compare_cons_same,
    compare_decimalPadded (by decide) (minute first) (minute second), compare_cons_same,
    compare_decimalPadded (by decide) (upTo first) (upTo second), compare_cons_same,
    compare_decimalPadded (by decide) (micro first) (micro second), Std.compare_self,
    Ordering.then_eq, order_shown]

end Moment

namespace Dialect

variable {column : Column}

theorem sqlite_write_dateTime (moment : Moment) :
    sqlite.write column (.dateTime moment) = .ok (.text moment.storedText) := by
  rw [write, checkWritten_of_ne_text (by simp)]
  rfl

theorem sqlite_write_date (date : Date) :
    sqlite.write column (.date date) = .ok (.text date.text) := by
  rw [write, checkWritten_of_ne_text (by simp)]
  rfl

/-- A column of moments or dates. -/
def timeColumn : Column :=
  { table := 0, position := 0, name := "written", declared := [], nullable := false
    autoIncrement := false, primaryKey := false, property := "written", host := .dateTime
    defaultValue := none }

end Dialect

end RelationalAccess
