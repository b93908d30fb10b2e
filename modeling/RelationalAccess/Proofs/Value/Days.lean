import RelationalAccess.Calendar.Date

/-!
Days and their dates: the date that lies some days from 1970-01-01 is a day of the calendar,
and lies that many days from it. Years are counted from March in cycles of 400; each has known
days before it, and the year of a day is the last that begins no later.
-/

namespace RelationalAccess.Calendar

/-- The days of a cycle before a year. -/
def yearStart (year : Int) : Int := 365 * year + year / 4 - year / 100 + year / 400

/-- The days of a cycle before a day, but for the leap days. -/
def plainDays (day : Int) : Int := day - day / 1460 + day / 36524 - day / 146096

theorem plainDays_mono {day later : Int} (ordered : day ≤ later) :
    plainDays day ≤ plainDays later := by
  unfold plainDays
  omega

/-- A year has all its plain days behind it on its first day, and not before. -/
theorem plainDays_yearStart {year : Nat} (inside : year < 400) :
    365 * (year : Int) ≤ plainDays (yearStart year) ∧
      (0 < year → plainDays (yearStart year - 1) < 365 * (year : Int)) :=
  (by decide +kernel : ∀ year : Nat, year < 400 →
    365 * (year : Int) ≤ plainDays (yearStart year) ∧
      (0 < year → plainDays (yearStart year - 1) < 365 * (year : Int))) year inside

/-- Only a year that ends in a leap year has 366 days. -/
theorem yearStart_succ {year : Nat} (inside : year < 400) :
    yearStart (year + 1) ≤ yearStart year + if isLeap (year + 1) then 366 else 365 :=
  (by decide +kernel : ∀ year : Nat, year < 400 →
    yearStart (year + 1) ≤ yearStart year + if isLeap (year + 1) then 366 else 365) year inside

/-- The year of a day of a cycle is the last that begins no later. -/
theorem yearStart_le_lt {day : Int} (start : 0 ≤ day) (inside : day < 146097) :
    ∃ year : Nat, plainDays day / 365 = year ∧ year < 400 ∧ yearStart year ≤ day ∧
      day < yearStart (year + 1) := by
  have first : (0 : Int) ≤ plainDays day := plainDays_mono start
  have last : plainDays day ≤ 145999 :=
    Int.le_trans (plainDays_mono (show day ≤ 146096 by omega)) (by decide)
  obtain ⟨year, isYear⟩ : ∃ year : Nat, plainDays day / 365 = year :=
    Int.eq_ofNat_of_zero_le (by omega)
  have small : year < 400 := by omega
  refine ⟨year, isYear, small, ?_, ?_⟩
  · rcases Int.lt_or_le day (yearStart year) with before | holds
    · have earlier := plainDays_mono (show day ≤ yearStart year - 1 by omega)
      have positive : 0 < year := by
        refine Nat.pos_of_ne_zero fun isFirst => ?_
        rw [isFirst] at before
        exact absurd start (Int.not_le.mpr before)
      have none := (plainDays_yearStart small).2 positive
      omega
    · exact holds
  · rcases Int.lt_or_le day (yearStart (year + 1)) with holds | after
    · exact holds
    · have later := plainDays_mono after
      have notLast : year ≠ 399 := by
        rintro rfl
        exact absurd inside (Int.not_lt.mpr after)
      have all := (plainDays_yearStart (show year + 1 < 400 by omega)).1
      push_cast at all
      omega

/-- The month of a day of a year that begins in March. -/
def monthOf (dayOfYear : Int) : Int :=
  let fromMarch := (5 * dayOfYear + 2) / 153
  if fromMarch < 10 then fromMarch + 3 else fromMarch - 9

/-- The day of its month. -/
def dayOf (dayOfYear : Int) : Int :=
  dayOfYear - (153 * ((5 * dayOfYear + 2) / 153) + 2) / 5 + 1

/-- The days of a year that begins in March have their months; only the last is a leap day. -/
theorem monthOf_dayOf {dayOfYear : Nat} (inside : dayOfYear < 366) :
    (1 ≤ monthOf dayOfYear ∧ monthOf dayOfYear ≤ 12) ∧ 1 ≤ dayOf dayOfYear ∧
      (153 * ((monthOf dayOfYear + 9) % 12) + 2) / 5 + dayOf dayOfYear - 1 = dayOfYear ∧
      dayOf dayOfYear ≤ if dayOfYear = 365 then 29 else daysInMonth 1 (monthOf dayOfYear).toNat :=
  (by decide +kernel : ∀ dayOfYear : Nat, dayOfYear < 366 →
    (1 ≤ monthOf dayOfYear ∧ monthOf dayOfYear ≤ 12) ∧ 1 ≤ dayOf dayOfYear ∧
      (153 * ((monthOf dayOfYear + 9) % 12) + 2) / 5 + dayOf dayOfYear - 1 = dayOfYear ∧
      dayOf dayOfYear ≤ if dayOfYear = 365 then 29 else daysInMonth 1 (monthOf dayOfYear).toNat)
    dayOfYear inside

/-- A day as its cycle of 400 years, the year of the cycle and the day of the year. -/
structure InCycle (days cycle : Int) (year dayOfYear : Nat) : Prop where
  count : days + 719468 = cycle * 146097 + yearStart year + dayOfYear
  year_lt : year < 400
  dayOfYear_lt : dayOfYear < 366
  leap : dayOfYear = 365 → isLeap (year + 1) = true
  civil : civilFromDays days =
    (if monthOf dayOfYear ≤ 2 then year + cycle * 400 + 1 else year + cycle * 400,
      (monthOf dayOfYear).toNat, (dayOf dayOfYear).toNat)

theorem yearStart_of_lt {year : Nat} (inside : year < 400) :
    yearStart year = 365 * (year : Int) + year / 4 - year / 100 := by
  unfold yearStart
  omega

theorem exists_inCycle (days : Int) :
    ∃ cycle year dayOfYear, InCycle days cycle year dayOfYear := by
  have start := Int.emod_nonneg (days + 719468) (by decide : (146097 : Int) ≠ 0)
  have inside := Int.emod_lt_of_pos (days + 719468) (by decide : (0 : Int) < 146097)
  obtain ⟨year, isYear, small, begun, ended⟩ := yearStart_le_lt start inside
  obtain ⟨dayOfYear, isDay⟩ : ∃ dayOfYear : Nat,
      (days + 719468) % 146097 - yearStart year = dayOfYear :=
    Int.eq_ofNat_of_zero_le (by omega)
  have length := yearStart_succ small
  refine ⟨(days + 719468) / 146097, year, dayOfYear, ?_, small, ?_, ?_, ?_⟩
  · omega
  · split at length <;> omega
  · intro isLast
    split at length
    · assumption
    · omega
  · rw [yearStart_of_lt small] at isDay
    rw [plainDays] at isYear
    simp only [civilFromDays, isYear, isDay]
    rfl

/-- The date that lies some days from the first of January 1970 lies that many days from it. -/
theorem daysFromCivil_civilFromDays (days : Int) :
    daysFromCivil (civilFromDays days).1 (civilFromDays days).2.1 (civilFromDays days).2.2 =
      days := by
  obtain ⟨cycle, year, dayOfYear, inCycle⟩ := exists_inCycle days
  obtain ⟨⟨monthPos, monthLe⟩, dayPos, isDay, _⟩ := monthOf_dayOf inCycle.dayOfYear_lt
  have count := inCycle.count
  have small := inCycle.year_lt
  have fromMarch : (year : Int) + cycle * 400 =
      (if (monthOf dayOfYear).toNat ≤ 2 then (civilFromDays days).1 - 1
        else (civilFromDays days).1) := by
    rw [inCycle.civil]
    split <;> split <;> omega
  rw [yearStart_of_lt small] at count
  unfold daysFromCivil
  simp only [inCycle.civil] at fromMarch ⊢
  rw [← fromMarch]
  have isCycle : ((year : Int) + cycle * 400) / 400 = cycle := by omega
  have isYear : ((year : Int) + cycle * 400) % 400 = year := by omega
  have month : Int.ofNat (((monthOf dayOfYear).toNat + 9) % 12) = (monthOf dayOfYear + 9) % 12 := by
    have cast := Int.toNat_of_nonneg (show 0 ≤ monthOf dayOfYear by omega)
    rw [Int.ofNat_eq_natCast, Int.natCast_emod, Int.natCast_add, cast]
    rfl
  have day : Int.ofNat (dayOf dayOfYear).toNat = dayOf dayOfYear :=
    Int.toNat_of_nonneg (show 0 ≤ dayOf dayOfYear by omega)
  rw [isCycle, isYear, month, day, isDay]
  omega

theorem isLeap_add_cycles (year cycle : Int) : isLeap (year + cycle * 400) = isLeap year := by
  have four : (year + cycle * 400) % 4 = year % 4 := by omega
  have hundred : (year + cycle * 400) % 100 = year % 100 := by omega
  have cycles : (year + cycle * 400) % 400 = year % 400 := by omega
  rw [isLeap, isLeap, four, hundred, cycles]

/-- No month is shorter than in the year 1, which has no leap day. -/
theorem daysInMonth_one_le (year : Int) (month : Nat) :
    daysInMonth 1 month ≤ daysInMonth year month := by
  unfold daysInMonth
  split
  case h_5 =>
    show 28 ≤ if isLeap year then 29 else 28
    split <;> decide
  all_goals exact Nat.le_refl _

/-- The date that lies some days from the first of January 1970 has a day of a month. -/
theorem inMonth_civilFromDays (days : Int) :
    (1 ≤ (civilFromDays days).2.1 ∧ (civilFromDays days).2.1 ≤ 12) ∧
      1 ≤ (civilFromDays days).2.2 ∧
      (civilFromDays days).2.2 ≤ daysInMonth (civilFromDays days).1 (civilFromDays days).2.1 := by
  obtain ⟨cycle, year, dayOfYear, inCycle⟩ := exists_inCycle days
  obtain ⟨⟨monthPos, monthLe⟩, dayPos, _, dayLe⟩ := monthOf_dayOf inCycle.dayOfYear_lt
  rw [inCycle.civil]
  simp only
  refine ⟨by omega, by omega, ?_⟩
  split at dayLe
  · next isLast =>
    have leap := inCycle.leap isLast
    have february : monthOf dayOfYear = 2 := by rw [isLast]; decide
    rw [if_pos (by omega), february]
    have leapYear : isLeap (year + cycle * 400 + 1) = true := by
      rw [Int.add_right_comm, isLeap_add_cycles, leap]
    show (dayOf dayOfYear).toNat ≤ if isLeap (year + cycle * 400 + 1) then 29 else 28
    rw [if_pos leapYear]
    omega
  · have inAnyYear := daysInMonth_one_le
      (if monthOf dayOfYear ≤ 2 then year + cycle * 400 + 1 else year + cycle * 400)
      (monthOf dayOfYear).toNat
    omega

/-- It is a day of the calendar if this covers its year. -/
theorem isDay_civilFromDays_iff {days : Int} :
    IsDay (civilFromDays days).1 (civilFromDays days).2.1 (civilFromDays days).2.2 ↔
      -262143 ≤ (civilFromDays days).1 ∧ (civilFromDays days).1 ≤ 262142 :=
  ⟨And.left, fun covered => ⟨covered, inMonth_civilFromDays days⟩⟩

theorem daysInMonth_le (year : Int) (month : Nat) : daysInMonth year month ≤ 31 := by
  unfold daysInMonth
  split
  case h_5 => split <;> decide
  all_goals decide

end RelationalAccess.Calendar
