import Mathlib.Tactic.IntervalCases
import RelationalAccess.Proofs.Text.Comparison
import RelationalAccess.Proofs.Value.Days

/-!
The order of days: a later date is more days from 1970-01-01. Months are counted from March of
the year 0, so that the leap day is the last of its year, and each begins when the days of the
month before are over.
-/

namespace RelationalAccess.Calendar

/-- The days before a month. -/
def monthStart (index : Int) : Int := yearStart (index / 12) + (153 * (index % 12) + 2) / 5

/-- The count of a month from March of the year 0. -/
def monthIndex (year : Int) (month : Nat) : Int := 12 * year + month - 3

/-- A day that its month has. -/
def InMonth (year : Int) (month day : Nat) : Prop :=
  (1 ≤ month ∧ month ≤ 12) ∧ 1 ≤ day ∧ day ≤ daysInMonth year month

variable {year otherYear : Int} {month day otherMonth otherDay : Nat}

theorem monthIndex_div (isMonth : 1 ≤ month ∧ month ≤ 12) :
    monthIndex year month / 12 = if month ≤ 2 then year - 1 else year := by
  unfold monthIndex
  split <;> omega

theorem monthIndex_mod : monthIndex year month % 12 = Int.ofNat ((month + 9) % 12) := by
  unfold monthIndex
  simp only [Int.ofNat_eq_natCast]
  omega

theorem daysFromCivil_eq (isMonth : 1 ≤ month ∧ month ≤ 12) :
    daysFromCivil year month day = monthStart (monthIndex year month) + day - 719469 := by
  unfold daysFromCivil monthStart yearStart
  rw [monthIndex_div isMonth, monthIndex_mod]
  simp only [Int.ofNat_eq_natCast]
  generalize (if month ≤ 2 then year - 1 else year) = shifted
  omega

theorem isLeap_iff : isLeap year = true ↔ year % 4 = 0 ∧ (year % 100 ≠ 0 ∨ year % 400 = 0) := by
  simp [isLeap]

/-- A month is over when the next one begins. -/
theorem monthStart_succ (year : Int) (isMonth : 1 ≤ month ∧ month ≤ 12) :
    monthStart (monthIndex year month) + daysInMonth year month ≤
      monthStart (monthIndex year month + 1) := by
  obtain ⟨positive, upTo⟩ := isMonth
  unfold monthStart monthIndex yearStart
  -- only February, behind which the year counted from March ends, depends on the year
  interval_cases month
  case «2» =>
    simp only [daysInMonth, isLeap_iff]
    split <;> omega
  all_goals
    simp only [daysInMonth]
    omega

theorem monthStart_step (index : Int) : monthStart index ≤ monthStart (index + 1) := by
  obtain ⟨year, month, isMonth, rfl⟩ :
      ∃ year month, (1 ≤ month ∧ month ≤ 12) ∧ index = monthIndex year month := by
    refine ⟨(index + 2) / 12, ((index + 2) % 12 + 1).toNat, ?_, ?_⟩
    · omega
    · unfold monthIndex
      omega
  have ended := monthStart_succ year isMonth
  omega

theorem monthStart_mono {index later : Int} (ordered : index ≤ later) :
    monthStart index ≤ monthStart later := by
  obtain ⟨distance, rfl⟩ := Int.le.dest ordered
  induction distance with
  | zero => exact Int.le_of_eq (congrArg monthStart (Int.add_zero index).symm)
  | succ distance inductionHypothesis =>
    refine Int.le_trans (inductionHypothesis (by omega)) ?_
    rw [Int.natCast_succ, ← Int.add_assoc]
    exact monthStart_step _

/-- A month that comes later begins when the days of the earlier one are over. -/
theorem monthStart_le_of_lt (inMonth : InMonth year month day)
    (earlier : monthIndex year month < monthIndex otherYear otherMonth) :
    monthStart (monthIndex year month) + day ≤ monthStart (monthIndex otherYear otherMonth) := by
  have ended := monthStart_succ year inMonth.1
  have begun := monthStart_mono (Int.add_one_le_of_lt earlier)
  have within := inMonth.2.2
  omega

theorem compare_monthIndex (isMonth : 1 ≤ month ∧ month ≤ 12)
    (otherIsMonth : 1 ≤ otherMonth ∧ otherMonth ≤ 12) :
    compare (monthIndex year month) (monthIndex otherYear otherMonth) =
      (compare year otherYear).then (compare month otherMonth) := by
  unfold monthIndex
  refine ordering_eq ?_ ?_
  · rw [Ordering.then_eq_lt, Int.compare_eq_lt, Int.compare_eq_lt, Int.compare_eq_eq,
      Nat.compare_eq_lt]
    omega
  · rw [Ordering.then_eq_eq, Int.compare_eq_eq, Int.compare_eq_eq, Nat.compare_eq_eq]
    omega

/-- Days are counted in the order of their years, months and days of the month. -/
theorem compare_daysFromCivil (inMonth : InMonth year month day)
    (otherInMonth : InMonth otherYear otherMonth otherDay) :
    compare (daysFromCivil year month day) (daysFromCivil otherYear otherMonth otherDay) =
      (compare year otherYear).then ((compare month otherMonth).then (compare day otherDay)) := by
  have before (earlier : monthIndex year month < monthIndex otherYear otherMonth) :=
    monthStart_le_of_lt inMonth earlier
  have after (later : monthIndex otherYear otherMonth < monthIndex year month) :=
    monthStart_le_of_lt otherInMonth later
  have begun := inMonth.2.1
  have otherBegun := otherInMonth.2.1
  rw [← Ordering.then_assoc, ← compare_monthIndex inMonth.1 otherInMonth.1,
    daysFromCivil_eq inMonth.1, daysFromCivil_eq otherInMonth.1]
  have same (equal : monthIndex year month = monthIndex otherYear otherMonth) :
      monthStart (monthIndex year month) = monthStart (monthIndex otherYear otherMonth) :=
    congrArg monthStart equal
  refine ordering_eq ?_ ?_
  · rw [Ordering.then_eq_lt, Int.compare_eq_lt, Int.compare_eq_lt, Int.compare_eq_eq,
      Nat.compare_eq_lt]
    omega
  · rw [Ordering.then_eq_eq, Int.compare_eq_eq, Int.compare_eq_eq, Nat.compare_eq_eq]
    omega

end RelationalAccess.Calendar
