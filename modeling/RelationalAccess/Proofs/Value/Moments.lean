import RelationalAccess.Calendar.Moment
import RelationalAccess.Proofs.Text.Readers
import RelationalAccess.Proofs.Value.Days

/-!
Dates are read back from their texts. Moments are read back from the texts in which they are
stored, to the microsecond, exactly if the calendar covers their year and only the last second of
a minute is a leap second.
-/

namespace RelationalAccess

open Numeral

variable {rest : List Char}

namespace Blank

theorem not_isBlank_of_isDigit {char : Char} (isDigit : char.isDigit = true) :
    isBlank char = false := by
  have bounds := of_decide_eq_true (Bool.and_eq_true_iff.mp isDigit).1
  have upTo := of_decide_eq_true (Bool.and_eq_true_iff.mp isDigit).2
  have least : 48 ≤ char.toNat := UInt32.le_iff_toNat_le.mp bounds
  have most : char.toNat ≤ 57 := UInt32.le_iff_toNat_le.mp upTo
  simp [isBlank, ranges]
  omega

theorem skip_of_apart {text : List Char} (apart : StartsApart isBlank text) : skip text = text :=
  dropWhile_of_apart apart

end Blank

namespace Numeral

theorem decimalPadded_eq_cons (width number : Nat) :
    ∃ first others, first.isDigit = true ∧ decimalPadded width number = first :: others := by
  have present := length_decimalPadded_pos width number
  have each (char : Char) : char ∈ decimalPadded width number → char.isDigit = true :=
    isDigit_of_mem_decimalPadded
  cases digits : decimalPadded width number with
  | nil => simp [digits] at present
  | cons first others => exact ⟨first, others, each first (digits ▸ List.mem_cons_self), rfl⟩

/-- A numeral does not begin with anything but a digit. -/
theorem startsApart_decimalPadded {kind : Char → Bool}
    (apart : ∀ char, char.isDigit = true → kind char = false) (width number : Nat)
    (rest : List Char) : StartsApart kind (decimalPadded width number ++ rest) := by
  obtain ⟨first, others, isDigit, begins⟩ := decimalPadded_eq_cons width number
  rw [begins]
  exact startsApart_cons.mpr (apart first isDigit)

end Numeral

namespace Calendar

theorem skip_decimalPadded (width number : Nat) (rest : List Char) :
    Blank.skip (decimalPadded width number ++ rest) = decimalPadded width number ++ rest :=
  Blank.skip_of_apart
    (startsApart_decimalPadded (fun _ => Blank.not_isBlank_of_isDigit) width number rest)

theorem readField_decimalPadded {amount : Nat} (fits : amount < 100) :
    readField (decimalPadded 2 amount ++ rest) = some (amount, rest) := by
  have skipped : Reader.blanks (decimalPadded 2 amount ++ rest) =
      some ((), decimalPadded 2 amount ++ rest) := by
    rw [Reader.blanks, skip_decimalPadded]
  rw [readField, Reader.bind_of_read skipped]
  exact Reader.number_decimalPadded (by decide) (by decide) fits

/-- A year without a sign has up to four digits. -/
theorem readYear_of_isDigit {first : Char} (isDigit : first.isDigit = true) :
    readYear (first :: rest) =
      (Reader.number 1 4 (first :: rest)).map fun (year, left) => (Int.ofNat year, left) := by
  have skipped : Blank.skip (first :: rest) = first :: rest :=
    Blank.skip_of_apart (startsApart_cons.mpr (Blank.not_isBlank_of_isDigit isDigit))
  rw [readYear, skipped]
  split
  · next begins =>
    obtain ⟨rfl, _⟩ := List.cons.inj begins
    cases isDigit
  · next begins =>
    obtain ⟨rfl, _⟩ := List.cons.inj begins
    cases isDigit
  · rfl

theorem readYear_yearText (year : Int) (ended : StartsApart Char.isDigit rest) :
    readYear (yearText year ++ rest) = some (year, rest) := by
  have whole := Reader.wholeNumber_decimalPadded 4 year.natAbs ended
  unfold yearText
  split
  · next four =>
    have isRead : Reader.number 1 4 (decimalPadded 4 year.toNat ++ rest) =
        some (year.toNat, rest) :=
      Reader.number_decimalPadded (by decide) (by decide) (show year.toNat < 10000 by omega)
    obtain ⟨first, others, isDigit, begins⟩ := decimalPadded_eq_cons 4 year.toNat
    rw [begins] at isRead ⊢
    rw [List.cons_append, readYear_of_isDigit isDigit, ← List.cons_append, isRead]
    simp only [Option.map_some, Int.ofNat_eq_natCast]
    rw [Int.toNat_of_nonneg four.1]
  · have skipped (sign : Char) (isSign : Blank.isBlank sign = false) (text : List Char) :
        Blank.skip (sign :: text) = sign :: text :=
      Blank.skip_of_apart (startsApart_cons.mpr isSign)
    split
    · next negative =>
      rw [List.cons_append, readYear, skipped '-' (by decide)]
      simp only [whole, Option.map_some, Int.ofNat_eq_natCast]
      rw [Int.ofNat_natAbs_of_nonpos (Int.le_of_lt negative), Int.neg_neg]
    · next nonnegative =>
      rw [List.cons_append, readYear, skipped '+' (by decide)]
      simp only [whole, Option.map_some, Int.ofNat_eq_natCast]
      rw [Int.natAbs_of_nonneg (Int.not_lt.mp nonnegative)]

end Calendar

namespace Date

open Calendar

/-- A written day is read as the date that it is, if there is that date. -/
theorem read_civilText (year : Int) {month day : Nat} (monthFits : month < 100)
    (dayFits : day < 100) (rest : List Char) :
    read (civilText year month day ++ rest) = (of? year month day).map (·, rest) := by
  have hyphen (text : List Char) : StartsApart Char.isDigit ('-' :: text) :=
    startsApart_cons.mpr (by decide)
  rw [civilText, List.append_assoc, List.append_assoc, List.cons_append, List.cons_append, read,
    Reader.bind_of_read (readYear_yearText year (hyphen _)),
    Reader.bind_of_read (Reader.exactly_cons '-' _),
    Reader.bind_of_read (readField_decimalPadded monthFits),
    Reader.bind_of_read (Reader.exactly_cons '-' _),
    Reader.bind_of_read (readField_decimalPadded dayFits)]
  cases of? year month day <;> rfl

/-- A date is read back from its text. -/
theorem ofText?_text (date : Date) : ofText? date.text = some date := by
  obtain ⟨_, ⟨_, monthLe⟩, _, dayLe⟩ := date.isDay
  have dayFits := Nat.le_trans dayLe (daysInMonth_le date.year date.month)
  have isRead := read_civilText date.year (show date.month < 100 by omega)
    (show date.day < 100 by omega) []
  have isDate : of? date.year date.month date.day = some date := dif_pos date.isDay
  refine Reader.run?_of_read ?_
  rw [text, String.toList_ofList, ← List.append_nil (civilText date.year date.month date.day),
    isRead, isDate]
  rfl

end Date

namespace Moment

open Calendar

/-- A moment without what is shorter than a microsecond. -/
def toMicroseconds (moment : Moment) : Moment where
  seconds := moment.seconds
  nanoseconds := moment.nanoseconds / 1000 * 1000
  nanoseconds_lt := by
    have := moment.nanoseconds_lt
    omega

/-- The calendar covers the year of a moment, and a leap second is the last of its minute. -/
structure Regular (moment : Moment) : Prop where
  covered : -262143 ≤ moment.fields.year ∧ moment.fields.year ≤ 262142
  leap : moment.nanoseconds < 1000000000 ∨ moment.seconds % 60 = 59

/-- The day of a moment, where the calendar covers it. -/
def day? (moment : Moment) : Option Date :=
  Date.of? moment.fields.year moment.fields.month moment.fields.day

theorem day?_of_covered {moment : Moment}
    (covered : -262143 ≤ moment.fields.year ∧ moment.fields.year ≤ 262142) :
    ∃ date, moment.day? = some date ∧ date.toDays = moment.seconds / 86400 := by
  have isDay := isDay_civilFromDays_iff.mpr covered
  exact ⟨_, dif_pos isDay, daysFromCivil_civilFromDays _⟩

theorem day?_of_not_covered {moment : Moment}
    (far : ¬ (-262143 ≤ moment.fields.year ∧ moment.fields.year ≤ 262142)) :
    moment.day? = none :=
  dif_neg fun isDay => far isDay.1

/-- The time of a day in its fields. -/
structure InDay (moment : Moment) : Prop where
  hour_lt : moment.fields.hour < 24
  minute_lt : moment.fields.minute < 60
  second_le : moment.fields.second ≤ 60
  seconds : moment.seconds / 86400 * 86400 + Int.ofNat (moment.fields.hour * 3600 +
      moment.fields.minute * 60 + moment.fields.second) =
    moment.seconds + Int.ofNat (moment.nanoseconds / 1000000000)
  nanosecond : moment.nanoseconds =
    moment.nanoseconds / 1000000000 * 1000000000 + moment.fields.nanosecond
  last : moment.fields.second = 60 ↔
    moment.seconds % 60 = 59 ∧ 1000000000 ≤ moment.nanoseconds

theorem inDay (moment : Moment) : moment.InDay := by
  have bound := moment.nanoseconds_lt
  constructor
  all_goals simp only [fields, Int.ofNat_eq_natCast]
  all_goals omega

theorem nanosecond_lt (moment : Moment) : moment.fields.nanosecond < 1000000000 :=
  Nat.mod_lt _ (by decide)

theorem readOptionalFraction_micro {micro : Nat} (fits : micro < 1000000)
    (ended : StartsApart Char.isDigit rest) :
    readOptionalFraction ('.' :: (decimalPadded 6 micro ++ rest)) =
      some (micro * 1000, rest) := by
  have length : (decimalPadded 6 micro).length = 6 := length_decimalPadded (by decide) fits
  have each (char : Char) : char ∈ decimalPadded 6 micro → char.isDigit = true :=
    isDigit_of_mem_decimalPadded
  have count := length_filterMap_digit? each
  have isPoint : Reader.optionally '.' ('.' :: (decimalPadded 6 micro ++ rest)) =
      some (true, decimalPadded 6 micro ++ rest) := by simp [Reader.optionally]
  have digits := Reader.digits_append each (show 1 ≤ _ by omega) (show _ ≤ 9 by omega)
    (.inr ended)
  have skipped : Reader.skipDigits rest = some ((), rest) := by
    rw [Reader.skipDigits]
    rw [dropWhile_of_apart ended]
  rw [readOptionalFraction, Reader.bind_of_read isPoint, if_pos rfl, readFraction,
    Reader.bind_of_read digits, Reader.bind_of_read skipped, value_decimalPadded, count, length]
  rfl

theorem blanks_space (width number : Nat) (rest : List Char) :
    Reader.blanks (' ' :: (decimalPadded width number ++ rest)) =
      some ((), decimalPadded width number ++ rest) := by
  have isSpace : Blank.skip (' ' :: (decimalPadded width number ++ rest)) =
      Blank.skip (decimalPadded width number ++ rest) :=
    List.dropWhile_cons_of_pos (by decide)
  rw [Reader.blanks, isSpace, skip_decimalPadded]

theorem read_dayText (moment : Moment) (text : List Char) :
    Date.read (moment.fields.dayText ++ text) = moment.day?.map (·, text) := by
  obtain ⟨⟨_, monthLe⟩, _, dayLe⟩ := inMonth_civilFromDays (moment.seconds / 86400)
  have dayFits := Nat.le_trans dayLe (daysInMonth_le _ _)
  have month : moment.fields.month < 100 := Nat.lt_of_le_of_lt monthLe (by decide)
  have day : moment.fields.day < 100 := Nat.lt_of_le_of_lt dayFits (by decide)
  exact Date.read_civilText moment.fields.year month day text

theorem toList_storedText (moment : Moment) :
    moment.storedText.toList = moment.fields.dayText ++
      ' ' :: (decimalPadded 2 moment.fields.hour ++
        ':' :: (decimalPadded 2 moment.fields.minute ++
          ':' :: (decimalPadded 2 moment.fields.second ++
            '.' :: (decimalPadded 6 (moment.fields.nanosecond / 1000) ++ [])))) := by
  simp [storedText, Fields.timeText]

/-- The fields of a stored moment are read as they are written. -/
theorem readStored_storedText (moment : Moment) :
    readStored.run? moment.storedText = moment.day?.bind fun date =>
      ofFields? date moment.fields.hour moment.fields.minute moment.fields.second
        (moment.fields.nanosecond / 1000 * 1000) := by
  have inDay := moment.inDay
  have hour := inDay.hour_lt
  have minute := inDay.minute_lt
  have second := inDay.second_le
  have nanosecond := moment.nanosecond_lt
  have isFraction := readOptionalFraction_micro
    (show moment.fields.nanosecond / 1000 < 1000000 by omega) (StartsApart.nil _)
  have isDay := moment.read_dayText
  refine Reader.run?_eq ?_
  rw [toList_storedText, readStored]
  cases found : moment.day? with
  | none =>
    simp only [found, Option.map_none] at isDay
    rw [Reader.bind_of_none (isDay _)]
    rfl
  | some date =>
    simp only [found, Option.map_some] at isDay
    rw [Reader.bind_of_read (isDay _), Reader.bind_of_read (blanks_space _ _ _),
      Reader.bind_of_read (readField_decimalPadded (show moment.fields.hour < 100 by omega)),
      Reader.bind_of_read (Reader.exactly_cons ':' _),
      Reader.bind_of_read (readField_decimalPadded (show moment.fields.minute < 100 by omega)),
      Reader.bind_of_read (Reader.exactly_cons ':' _),
      Reader.bind_of_read (readField_decimalPadded (show moment.fields.second < 100 by omega)),
      Reader.bind_of_read isFraction, Option.bind_some]
    generalize ofFields? date _ _ _ _ = result
    cases result <;> rfl

theorem of?_eq_some {seconds : Int} {nanoseconds : Nat} (bound : nanoseconds < 2000000000)
    (leap : nanoseconds < 1000000000 ∨ seconds % 60 = 59) :
    of? seconds nanoseconds = some ⟨seconds, nanoseconds, bound⟩ := by
  rw [of?, dif_pos bound, if_pos leap]

/-- The fields of a moment give the moment back, to the microsecond, unless it is a leap second
that is not the last of its minute: this is taken for the second that follows. -/
theorem ofFields?_fields {moment : Moment} {date : Date}
    (onDay : date.toDays = moment.seconds / 86400) :
    ∃ found, ofFields? date moment.fields.hour moment.fields.minute moment.fields.second
        (moment.fields.nanosecond / 1000 * 1000) = some found ∧
      (found = moment.toMicroseconds ↔
        moment.nanoseconds < 1000000000 ∨ moment.seconds % 60 = 59) := by
  have inDay := moment.inDay
  have seconds := inDay.seconds
  have nanosecond := inDay.nanosecond
  have last := inDay.last
  have bound := moment.nanoseconds_lt
  rw [ofFields?, if_pos ⟨inDay.hour_lt, inDay.minute_lt, inDay.second_le⟩, onDay]
  by_cases isLeap : moment.fields.second = 60
  · obtain ⟨isLast, long⟩ := last.mp isLeap
    have same : moment.seconds / 86400 * 86400 + Int.ofNat (moment.fields.hour * 3600 +
        moment.fields.minute * 60 + 59) = moment.seconds := by
      simp only [Int.ofNat_eq_natCast] at seconds ⊢
      omega
    have sameLong : moment.fields.nanosecond / 1000 * 1000 + 1000000000 =
        moment.nanoseconds / 1000 * 1000 := by omega
    rw [if_pos isLeap]
    simp only [same, sameLong]
    exact ⟨_, of?_eq_some moment.toMicroseconds.nanoseconds_lt (.inr isLast),
      fun _ => .inr isLast, fun _ => rfl⟩
  · rw [if_neg isLeap]
    have short : moment.fields.nanosecond / 1000 * 1000 + 0 < 1000000000 := by
      have := moment.nanosecond_lt
      omega
    refine ⟨_, of?_eq_some (by omega) (.inl short), ?_⟩
    simp only [Int.ofNat_eq_natCast] at seconds
    simp only [toMicroseconds, Moment.mk.injEq, Int.ofNat_eq_natCast]
    omega

/-- A year that the calendar does not cover is written with a sign. -/
theorem signed_yearText {year : Int} (far : ¬ (-262143 ≤ year ∧ year ≤ 262142)) :
    ∃ sign others, yearText year = sign :: others ∧ sign.isDigit = false := by
  rw [yearText, if_neg (by omega)]
  refine ⟨_, _, rfl, ?_⟩
  split <;> decide

/-- A moment is read back from the text in which it is stored, to the microsecond, exactly if it
is regular. -/
theorem ofText?_storedText_iff (moment : Moment) :
    ofText? moment.storedText = some moment.toMicroseconds ↔ moment.Regular := by
  by_cases covered : -262143 ≤ moment.fields.year ∧ moment.fields.year ≤ 262142
  · obtain ⟨date, isDay, onDay⟩ := day?_of_covered covered
    obtain ⟨found, isFound, same⟩ := ofFields?_fields onDay
    rw [ofText?, readStored_storedText, isDay, Option.bind_some, isFound, Option.orElse_eq_orElse,
      Option.orElse_eq_or, Option.some_or, Option.some_inj, same]
    exact ⟨fun leap => ⟨covered, leap⟩, Regular.leap⟩
  · have unzoned : readZoned.run? moment.storedText = none := by
      refine Reader.run?_eq (Reader.bind_of_none (Reader.number_of_apart (by decide) ?_))
      obtain ⟨sign, others, begins, isSign⟩ := signed_yearText covered
      rw [storedText, String.toList_ofList, Fields.dayText, civilText, begins]
      exact startsApart_cons.mpr isSign
    rw [ofText?, readStored_storedText, day?_of_not_covered covered, unzoned]
    exact ⟨nofun, fun regular => absurd regular.covered covered⟩

end Moment

end RelationalAccess
