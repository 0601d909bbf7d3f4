import IssueQuery.Calendar
import Mathlib

/-!
# Day numbers

The days of the calendar are numbered: `Date.dayNumber` is a closed formula of year, month and day,
by which the first day of the year `1` has the number `1`.  Stepping a day on or back adds one or
takes one off (`Date.dayNumber_next`, `Date.dayNumber_prev`), so the carry over the ends of months,
leap days and years is plain addition (`Date.dayNumber_addDays`), and dates are ordered as their
numbers are (`Date.compare_eq_compare_dayNumber`).

`DateTime.date_shift_eq_iff` draws the consequence for the clock of another place: it shows the date
on whose day the instant falls there.
-/

namespace IssueQuery

/-! ### Years and months -/

/-- The days of all years before a year, counted from the year `1` on. -/
def daysBeforeYear (year : Int) : Int :=
  365 * (year - 1) + (year - 1) / 4 - (year - 1) / 100 + (year - 1) / 400

/-- The days of all months of a year before a month. -/
def daysBeforeMonth (year : Int) (month : ℕ) : ℕ := ∑ m ∈ Finset.Ico 1 month, daysInMonth year m

/-- The days of a year. -/
def daysInYear (year : Int) : ℕ := if isLeapYear year then 366 else 365

/-- The rule of the Gregorian calendar for leap years, as a proposition. -/
lemma isLeapYear_iff {year : Int} :
    isLeapYear year = true ↔ year % 4 = 0 ∧ (year % 100 ≠ 0 ∨ year % 400 = 0) := by
  simp [isLeapYear]

/-- A year puts off the next one by the number of its days. -/
lemma daysBeforeYear_succ (year : Int) :
    daysBeforeYear (year + 1) = daysBeforeYear year + daysInYear year := by
  rw [daysBeforeYear, daysBeforeYear, daysInYear]
  split
  next hleap =>
    rw [isLeapYear_iff] at hleap
    omega
  next hcommon =>
    rw [isLeapYear_iff] at hcommon
    omega

/-- A later year does not begin before an earlier one. -/
lemma daysBeforeYear_le {year other : Int} (h : year ≤ other) :
    daysBeforeYear year ≤ daysBeforeYear other := by
  obtain rfl | hlt := h.eq_or_lt
  · exact le_refl _
  · rw [daysBeforeYear, daysBeforeYear]
    omega

/-- A month puts off the next one by the number of its days. -/
lemma daysBeforeMonth_succ (year : Int) {month : ℕ} (h : 1 ≤ month) :
    daysBeforeMonth year (month + 1) = daysBeforeMonth year month + daysInMonth year month :=
  Finset.sum_Ico_succ_top h _

/-- A later month of a year does not begin before an earlier one. -/
lemma daysBeforeMonth_le (year : Int) {month other : ℕ} (h : month ≤ other) :
    daysBeforeMonth year month ≤ daysBeforeMonth year other :=
  Finset.sum_le_sum_of_subset (Finset.Ico_subset_Ico_right h)

/-- The twelve months make up the year. -/
lemma daysBeforeMonth_thirteen (year : Int) : daysBeforeMonth year 13 = daysInYear year := by
  have hmonths : Finset.Ico 1 13 = {1, 2, 3, 4, 5, 6, 7, 8, 9, 10, 11, 12} := by decide
  rw [daysBeforeMonth, hmonths, daysInYear]
  cases hleap : isLeapYear year <;> simp [daysInMonth, hleap]

namespace Date

/-- The number of a day.  The first day of the year `1` has the number `1`. -/
def dayNumber (d : Date) : Int :=
  daysBeforeYear d.year + daysBeforeMonth d.year d.month + d.day

variable {a b d : Date}

/-- A day lies within its year. -/
lemma daysBeforeYear_lt_dayNumber (d : Date) : daysBeforeYear d.year < d.dayNumber := by
  have hday := d.one_le_day
  rw [dayNumber]
  omega

/-- No day of a year lies beyond the end of the year. -/
lemma dayNumber_le_daysBeforeYear_succ (d : Date) :
    d.dayNumber ≤ daysBeforeYear (d.year + 1) := by
  have hday := d.day_le
  have hmonth : daysBeforeMonth d.year (d.month + 1) ≤ daysBeforeMonth d.year 13 :=
    daysBeforeMonth_le d.year (Nat.succ_le_succ d.month_le)
  rw [daysBeforeMonth_succ d.year d.one_le_month, daysBeforeMonth_thirteen] at hmonth
  rw [dayNumber, daysBeforeYear_succ]
  omega

/-! ### Steps -/

/-- The day after has the next number, also across the ends of months and years. -/
theorem dayNumber_next (d : Date) : d.next.dayNumber = d.dayNumber + 1 := by
  rw [next]
  split
  next hday =>
    simp only [dayNumber]
    omega
  next hday =>
    have hlast : d.day = daysInMonth d.year d.month := le_antisymm d.day_le (not_lt.mp hday)
    split
    next hmonth =>
      simp only [dayNumber, daysBeforeMonth_succ d.year d.one_le_month]
      omega
    next hmonth =>
      -- The last day of the year: its months are complete.
      have htwelve : d.month = 12 := le_antisymm d.month_le (not_lt.mp hmonth)
      have hmonths := daysBeforeMonth_succ d.year d.one_le_month
      rw [htwelve, daysBeforeMonth_thirteen] at hmonths
      rw [htwelve] at hlast
      simp only [dayNumber, daysBeforeYear_succ, htwelve]
      simp only [daysBeforeMonth, Finset.Ico_self, Finset.sum_empty] at hmonths ⊢
      omega

/-- The day before has the number before, also across the ends of months and years. -/
theorem dayNumber_prev (d : Date) : d.prev.dayNumber = d.dayNumber - 1 := by
  rw [prev]
  split
  next hday =>
    simp only [dayNumber]
    omega
  next hday =>
    have hfirst : d.day = 1 := le_antisymm (not_lt.mp hday) d.one_le_day
    split
    next hmonth =>
      have hmonths := daysBeforeMonth_succ d.year (Nat.le_pred_of_lt hmonth)
      rw [Nat.pred_eq_sub_one, Nat.sub_add_cancel d.one_le_month] at hmonths
      simp only [dayNumber, hfirst]
      omega
    next hmonth =>
      -- The first day of the year: all months of the year before it are complete.
      have hone : d.month = 1 := le_antisymm (not_lt.mp hmonth) d.one_le_month
      have hmonths := daysBeforeMonth_succ (d.year - 1) (show 1 ≤ 12 by decide)
      have hyears := daysBeforeYear_succ (d.year - 1)
      have hlast : daysInMonth (d.year - 1) 12 = 31 := rfl
      rw [daysBeforeMonth_thirteen, hlast] at hmonths
      rw [sub_add_cancel] at hyears
      simp only [dayNumber, hone, hfirst]
      simp only [daysBeforeMonth, Finset.Ico_self, Finset.sum_empty] at hmonths ⊢
      omega

/-- To go some days on is to add their number. -/
theorem dayNumber_addDays (d : Date) (days : Int) :
    (d.addDays days).dayNumber = d.dayNumber + days := by
  have hforth (n : ℕ) : (Nat.repeat next n d).dayNumber = d.dayNumber + n := by
    induction n with
    | zero => simp [Nat.repeat]
    | succ n ih =>
      rw [Nat.repeat, dayNumber_next, ih]
      omega
  have hback (n : ℕ) : (Nat.repeat prev n d).dayNumber = d.dayNumber - n := by
    induction n with
    | zero => simp [Nat.repeat]
    | succ n ih =>
      rw [Nat.repeat, dayNumber_prev, ih]
      omega
  cases days with
  | ofNat n => exact hforth n
  | negSucc n =>
    rw [addDays, hback]
    omega

/-! ### Order -/

/-- A day of an earlier year has a smaller number. -/
lemma dayNumber_lt_of_year_lt (h : a.year < b.year) : a.dayNumber < b.dayNumber :=
  calc
    a.dayNumber ≤ daysBeforeYear (a.year + 1) := a.dayNumber_le_daysBeforeYear_succ
    _ ≤ daysBeforeYear b.year := daysBeforeYear_le h
    _ < b.dayNumber := b.daysBeforeYear_lt_dayNumber

/-- Within a year a day of an earlier month has a smaller number. -/
lemma dayNumber_lt_of_month_lt (hyear : a.year = b.year) (h : a.month < b.month) :
    a.dayNumber < b.dayNumber := by
  have hday := a.day_le
  have hother := b.one_le_day
  have hmonths : daysBeforeMonth a.year (a.month + 1) ≤ daysBeforeMonth b.year b.month :=
    hyear ▸ daysBeforeMonth_le a.year h
  rw [daysBeforeMonth_succ a.year a.one_le_month] at hmonths
  rw [dayNumber, dayNumber, hyear]
  rw [hyear] at hday hmonths
  omega

/-- Within a month an earlier day has a smaller number. -/
lemma dayNumber_lt_of_day_lt (hyear : a.year = b.year) (hmonth : a.month = b.month)
    (h : a.day < b.day) : a.dayNumber < b.dayNumber := by
  rw [dayNumber, dayNumber, hyear, hmonth]
  omega

/-- Dates are ordered as their numbers are. -/
theorem compare_eq_compare_dayNumber (a b : Date) :
    a.compare b = Ord.compare a.dayNumber b.dayNumber := by
  rw [compare]
  rcases lt_trichotomy a.year b.year with hyear | hyear | hyear
  · rw [compare_lt_iff_lt.mpr hyear, compare_lt_iff_lt.mpr (dayNumber_lt_of_year_lt hyear)]
    rfl
  · rw [compare_eq_iff_eq.mpr hyear, Ordering.then]
    rcases lt_trichotomy a.month b.month with hmonth | hmonth | hmonth
    · rw [compare_lt_iff_lt.mpr hmonth,
        compare_lt_iff_lt.mpr (dayNumber_lt_of_month_lt hyear hmonth)]
      rfl
    · rw [compare_eq_iff_eq.mpr hmonth, Ordering.then]
      rcases lt_trichotomy a.day b.day with hday | hday | hday
      · rw [compare_lt_iff_lt.mpr hday,
          compare_lt_iff_lt.mpr (dayNumber_lt_of_day_lt hyear hmonth hday)]
      · have hsame : a.dayNumber = b.dayNumber := by
          rw [dayNumber, dayNumber, hyear, hmonth, hday]
        rw [compare_eq_iff_eq.mpr hday, compare_eq_iff_eq.mpr hsame]
      · rw [compare_gt_iff_gt.mpr hday,
          compare_gt_iff_gt.mpr (dayNumber_lt_of_day_lt hyear.symm hmonth.symm hday)]
    · rw [compare_gt_iff_gt.mpr hmonth,
        compare_gt_iff_gt.mpr (dayNumber_lt_of_month_lt hyear.symm hmonth)]
      rfl
  · rw [compare_gt_iff_gt.mpr hyear, compare_gt_iff_gt.mpr (dayNumber_lt_of_year_lt hyear)]
    rfl

/-- A date is known from its number. -/
lemma dayNumber_injective : Function.Injective dayNumber := by
  intro a b hsame
  have hcompare : a.compare b = .eq := by
    rw [compare_eq_compare_dayNumber, compare_eq_iff_eq.mpr hsame]
  rw [compare, Ordering.then_eq_eq, Ordering.then_eq_eq, compare_eq_iff_eq, compare_eq_iff_eq,
    compare_eq_iff_eq] at hcompare
  obtain ⟨hyear, hmonth, hday⟩ := hcompare
  cases a
  cases b
  congr

end Date

namespace DateTime

/-- The seconds up to a moment, from the beginning of the day with the number `0` on. -/
def seconds (t : DateTime) : Int := 86400 * t.date.dayNumber + t.time.second

/-- A moment lies within its day. -/
lemma date_eq_iff {t : DateTime} {d : Date} : t.date = d ↔
    86400 * d.dayNumber ≤ t.seconds ∧ t.seconds < 86400 * (d.dayNumber + 1) := by
  have htime := t.time.second_lt
  rw [← Date.dayNumber_injective.eq_iff, seconds]
  omega

/-- The wall clock of a place is ahead of the instant by the offset, in seconds. -/
lemma seconds_shift (t : DateTime) (offset : Int) :
    (t.shift offset).seconds = t.seconds + offset := by
  simp only [seconds, shift, Date.dayNumber_addDays]
  omega

/-- The clock of another place shows the date on whose day the instant falls there. -/
theorem date_shift_eq_iff {t : DateTime} {offset : Int} {d : Date} : (t.shift offset).date = d ↔
    86400 * d.dayNumber ≤ t.seconds + offset ∧ t.seconds + offset < 86400 * (d.dayNumber + 1) := by
  rw [date_eq_iff, seconds_shift]

end DateTime

end IssueQuery
