/-!
# Civil dates and times

Dates of the proleptic Gregorian calendar, times of day with a leap second, and date-times.  A year
is any integer, so year `0` and the years before it are dates too.  `DateTime.shift` moves an
instant to the wall clock of a place that lies a given number of seconds east, and `Date.text`
writes a date the way a query does: year, month and day between slashes, with years from `0` to
`9999` in four digits and all other years with a sign.
-/

namespace IssueQuery

/-- A year is a leap year when four divides it, unless a hundred does and four hundred does not. -/
def isLeapYear (year : Int) : Bool :=
  year % 4 == 0 && (year % 100 != 0 || year % 400 == 0)

/-- The number of days of a month; months are numbered from `1`. -/
def daysInMonth (year : Int) (month : Nat) : Nat :=
  match month with
  | 2 => if isLeapYear year then 29 else 28
  | 4 | 6 | 9 | 11 => 30
  | _ => 31

/-- Every month of every year has between 28 and 31 days. -/
theorem daysInMonth_bounds (year : Int) (month : Nat) :
    28 ≤ daysInMonth year month ∧ daysInMonth year month ≤ 31 := by
  unfold daysInMonth
  split <;> (try split) <;> omega

/-- The digits of a number, with zeros in front until there are `width` of them. -/
def paddedDigits (width n : Nat) : String :=
  let digits := Nat.toDigits 10 n
  String.ofList (List.replicate (width - digits.length) '0' ++ digits)

/-- A day of the proleptic Gregorian calendar. -/
structure Date where
  year : Int
  month : Nat
  day : Nat
  one_le_month : 1 ≤ month
  month_le : month ≤ 12
  one_le_day : 1 ≤ day
  day_le : day ≤ daysInMonth year month
  deriving DecidableEq

namespace Date

/-- The date with the given numbers, if the calendar has it. -/
def ofNumbers? (year : Int) (month day : Nat) : Option Date :=
  if h : 1 ≤ month ∧ month ≤ 12 ∧ 1 ≤ day ∧ day ≤ daysInMonth year month then
    some ⟨year, month, day, h.1, h.2.1, h.2.2.1, h.2.2.2⟩
  else none

/-- The day after: the next day of the month, else the first of the next month or year. -/
def next (d : Date) : Date :=
  if h : d.day < daysInMonth d.year d.month then
    { d with day := d.day + 1, one_le_day := by omega, day_le := h }
  else if hm : d.month < 12 then
    ⟨d.year, d.month + 1, 1, by omega, hm, Nat.le_refl 1,
      Nat.le_trans (by decide) (daysInMonth_bounds d.year (d.month + 1)).1⟩
  else
    ⟨d.year + 1, 1, 1, by decide, by decide, by decide,
      Nat.le_trans (by decide) (daysInMonth_bounds (d.year + 1) 1).1⟩

/-- The day before: the previous day of the month, else the last of the month before. -/
def prev (d : Date) : Date :=
  if h : 1 < d.day then
    { d with day := d.day - 1, one_le_day := by omega
             day_le := Nat.le_trans (Nat.sub_le _ _) d.day_le }
  else if hm : 1 < d.month then
    ⟨d.year, d.month - 1, daysInMonth d.year (d.month - 1), by omega,
      Nat.le_trans (Nat.sub_le _ _) d.month_le,
      Nat.le_trans (by decide) (daysInMonth_bounds d.year (d.month - 1)).1, Nat.le_refl _⟩
  else
    ⟨d.year - 1, 12, 31, by decide, by decide, by decide, Nat.le_refl 31⟩

/-- The date some days later, or earlier when the number is negative. -/
def addDays (d : Date) : Int → Date
  | .ofNat n => Nat.repeat next n d
  | .negSucc n => Nat.repeat prev (n + 1) d

/-- Dates are ordered by year, then month, then day. -/
def compare (a b : Date) : Ordering :=
  (Ord.compare a.year b.year).then
    ((Ord.compare a.month b.month).then (Ord.compare a.day b.day))

/-- A year of one to four digits is padded to four; any other year carries its sign. -/
def yearText (year : Int) : String :=
  if 0 ≤ year ∧ year ≤ 9999 then paddedDigits 4 year.natAbs
  else (if year < 0 then "-" else "+") ++ paddedDigits 4 year.natAbs

/-- The text of a date in a query: `2024/03/05`. -/
def text (d : Date) : String :=
  yearText d.year ++ "/" ++ paddedDigits 2 d.month ++ "/" ++ paddedDigits 2 d.day

end Date

/-- A time of day.  The nanoseconds of a leap second run on past one second. -/
structure TimeOfDay where
  second : Nat
  nanosecond : Nat
  second_lt : second < 86400
  nanosecond_lt : nanosecond < 2000000000
  deriving DecidableEq

namespace TimeOfDay

/-- The time at which a day begins. -/
def midnight : TimeOfDay := ⟨0, 0, by decide, by decide⟩

/-- The time shown by a clock, if a clock can show it; only the last second of a minute can be a
leap second. -/
def ofNumbers? (hour minute second nanosecond : Nat) : Option TimeOfDay :=
  if h : hour < 24 ∧ minute < 60 ∧ second < 60 ∧
      (nanosecond < 1000000000 ∨ second = 59 ∧ nanosecond < 2000000000) then
    some ⟨hour * 3600 + minute * 60 + second, nanosecond, by omega, by omega⟩
  else none

/-- The hour that a clock shows. -/
def hour (t : TimeOfDay) : Nat := t.second / 3600

/-- The minute that a clock shows. -/
def minute (t : TimeOfDay) : Nat := t.second / 60 % 60

/-- The second that a clock shows; a leap second is part of the last one. -/
def secondOfMinute (t : TimeOfDay) : Nat := t.second % 60

/-- Times of a day in their order. -/
def compare (a b : TimeOfDay) : Ordering :=
  (Ord.compare a.second b.second).then (Ord.compare a.nanosecond b.nanosecond)

end TimeOfDay

/-- A date and a time of day, without a place. -/
structure DateTime where
  date : Date
  time : TimeOfDay
  deriving DecidableEq

namespace DateTime

/-- The first moment of a day. -/
def ofDate (d : Date) : DateTime := ⟨d, .midnight⟩

/-- Date-times are ordered by date, then by time of day. -/
def compare (a b : DateTime) : Ordering :=
  (a.date.compare b.date).then (a.time.compare b.time)

/-- What a clock shows that runs `offset` seconds ahead.  Nanoseconds stay as they are, and the
seconds carry into the date. -/
def shift (t : DateTime) (offset : Int) : DateTime :=
  let seconds := (t.time.second : Int) + offset
  { date := t.date.addDays (seconds / 86400)
    time := { t.time with second := (seconds % 86400).toNat, second_lt := by omega } }

end DateTime

end IssueQuery
