import IssueQuery.Proofs.Calendar.DayNumber
import IssueQuery.Value

/-!
# Dates as texts

`Date.ofText?` reads a date out of a text of year, month and day between slashes, and it reads every
date out of its own text (`Date.ofText?_text`); so no two dates have the same text.  With four
digits for the year all texts have the same length, and then their order, character by character, is
that of the numbers in them (`Date.text_lt_iff`).

`Value.jql_dateTime` collects what this says about the date-times of a query.
-/

namespace IssueQuery

/-! ### Padded digits -/

/-- The number that a list of digits stands for. -/
def readNat? (cs : List Char) : Option ℕ :=
  if cs ≠ [] ∧ cs.all Char.isDigit then some (Nat.ofDigitChars 10 cs 0) else none

section Digits

variable {width n : ℕ}

/-- A padded number is made of zeros and then of its digits. -/
lemma toList_paddedDigits (width n : ℕ) : (paddedDigits width n).toList =
    List.replicate (width - (Nat.toDigits 10 n).length) '0' ++ Nat.toDigits 10 n := by
  rw [paddedDigits, String.toList_ofList]

/-- A padded number has no characters but digits. -/
lemma isDigit_of_mem_paddedDigits {c : Char} (h : c ∈ (paddedDigits width n).toList) :
    c.isDigit = true := by
  rw [toList_paddedDigits, List.mem_append] at h
  obtain hzero | hdigit := h
  · obtain rfl := List.eq_of_mem_replicate hzero
    rfl
  · exact Nat.isDigit_of_mem_toDigits (by decide) (by decide) hdigit

/-- Padding does not change the number. -/
lemma ofDigitChars_paddedDigits (width n : ℕ) :
    Nat.ofDigitChars 10 (paddedDigits width n).toList 0 = n := by
  rw [toList_paddedDigits, Nat.ofDigitChars_append, Nat.ofDigitChars_replicate_zero, Nat.mul_zero,
    Nat.ofDigitChars_ten_toDigits]

/-- A padded number is read back, whatever its width is. -/
lemma readNat?_paddedDigits (width n : ℕ) : readNat? (paddedDigits width n).toList = some n := by
  have hne : (paddedDigits width n).toList ≠ [] := by
    rw [toList_paddedDigits]
    exact List.append_ne_nil_of_right_ne_nil _ Nat.toDigits_ne_nil
  have hall : (paddedDigits width n).toList.all Char.isDigit = true :=
    List.all_eq_true.mpr fun c hc => isDigit_of_mem_paddedDigits hc
  rw [readNat?, if_pos ⟨hne, hall⟩, ofDigitChars_paddedDigits]

/-- A number with few digits fills the width exactly. -/
lemma length_paddedDigits (hwidth : 0 < width) (h : n < 10 ^ width) :
    (paddedDigits width n).toList.length = width := by
  have hlength : (Nat.toDigits 10 n).length ≤ width :=
    (Nat.length_toDigits_le_iff (by decide) hwidth).mpr h
  rw [toList_paddedDigits, List.length_append, List.length_replicate]
  omega

end Digits

/-! ### Order by characters -/

/-- The characters of the digits lie together. -/
lemma toNat_of_isDigit {c : Char} (h : c.isDigit = true) : 48 ≤ c.toNat ∧ c.toNat ≤ 57 := by
  rw [Char.isDigit, Bool.and_eq_true, decide_eq_true_eq, decide_eq_true_eq] at h
  exact ⟨UInt32.le_iff_toNat_le.mp h.1, UInt32.le_iff_toNat_le.mp h.2⟩

/-- The first digit counts the most. -/
lemma ofDigitChars_cons_zero (c : Char) (cs : List Char) : Nat.ofDigitChars 10 (c :: cs) 0 =
    10 ^ cs.length * (c.toNat - 48) + Nat.ofDigitChars 10 cs 0 := by
  rw [Nat.ofDigitChars_cons, Nat.ofDigitChars_eq_ofDigitChars_zero, Nat.mul_zero, Nat.zero_add]
  rfl

/-- A number with so many digits is less than that power of ten. -/
lemma ofDigitChars_lt {cs : List Char} (hcs : ∀ c ∈ cs, c.isDigit = true) :
    Nat.ofDigitChars 10 cs 0 < 10 ^ cs.length := by
  induction cs with
  | nil => simp
  | cons c cs ih =>
    obtain ⟨hc, hrest⟩ := List.forall_mem_cons.mp hcs
    have hdigit := toNat_of_isDigit hc
    have hlt := ih hrest
    have hvalue : 10 ^ cs.length * (c.toNat - 48) ≤ 10 ^ cs.length * 9 :=
      Nat.mul_le_mul_left _ (by omega)
    rw [ofDigitChars_cons_zero, List.length_cons, pow_succ]
    omega

/-- Among lists of digits of one length the order by characters is that of the numbers. -/
lemma digits_lt_iff {cs ds : List Char} (hcs : ∀ c ∈ cs, c.isDigit = true)
    (hds : ∀ d ∈ ds, d.isDigit = true) (hlength : cs.length = ds.length) :
    cs < ds ↔ Nat.ofDigitChars 10 cs 0 < Nat.ofDigitChars 10 ds 0 := by
  induction cs generalizing ds with
  | nil =>
    obtain rfl := List.eq_nil_of_length_eq_zero hlength.symm
    simp
  | cons c cs ih =>
    cases ds with
    | nil => cases hlength
    | cons d ds =>
      obtain ⟨hc, hcs⟩ := List.forall_mem_cons.mp hcs
      obtain ⟨hd, hds⟩ := List.forall_mem_cons.mp hds
      have hlength : cs.length = ds.length := Nat.succ.inj hlength
      have hcdigit := toNat_of_isDigit hc
      have hddigit := toNat_of_isDigit hd
      have hcslt := ofDigitChars_lt hcs
      have hdslt := ofDigitChars_lt hds
      rw [← hlength] at hdslt
      rw [List.cons_lt_cons_iff, ih hcs hds hlength, ofDigitChars_cons_zero,
        ofDigitChars_cons_zero, ← hlength]
      change c.toNat < d.toNat ∨ _ ↔ _
      -- The first digits decide unless they are the same.
      rcases lt_trichotomy c.toNat d.toNat with hlt | heq | hgt
      · have hvalue : 10 ^ cs.length * (c.toNat - 48 + 1) ≤ 10 ^ cs.length * (d.toNat - 48) :=
          Nat.mul_le_mul_left _ (by omega)
        rw [Nat.mul_add_one] at hvalue
        exact iff_of_true (.inl hlt) (by omega)
      · obtain rfl := Char.toNat_inj.mp heq
        simp
      · have hvalue : 10 ^ cs.length * (d.toNat - 48 + 1) ≤ 10 ^ cs.length * (c.toNat - 48) :=
          Nat.mul_le_mul_left _ (by omega)
        rw [Nat.mul_add_one] at hvalue
        refine iff_of_false ?_ (by omega)
        rintro (hlt | ⟨rfl, -⟩)
        · omega
        · omega

/-- Numbers that are padded to the same width have the same text only if they are equal. -/
lemma paddedDigits_inj {width m n : ℕ} :
    (paddedDigits width m).toList = (paddedDigits width n).toList ↔ m = n := by
  constructor
  · intro hsame
    rw [← ofDigitChars_paddedDigits width m, hsame, ofDigitChars_paddedDigits]
  · rintro rfl
    rfl

/-- Numbers that fill the same width are ordered as their digits are. -/
lemma paddedDigits_lt_iff {width m n : ℕ} (hm : (paddedDigits width m).toList.length = width)
    (hn : (paddedDigits width n).toList.length = width) :
    (paddedDigits width m).toList < (paddedDigits width n).toList ↔ m < n := by
  rw [digits_lt_iff (fun c hc => isDigit_of_mem_paddedDigits hc)
    (fun c hc => isDigit_of_mem_paddedDigits hc) (hm.trans hn.symm), ofDigitChars_paddedDigits,
    ofDigitChars_paddedDigits]

/-- Texts with first parts of one length are ordered by these first. -/
lemma append_lt_append_iff {as bs cs ds : List Char} (hlength : as.length = cs.length) :
    as ++ bs < cs ++ ds ↔ as < cs ∨ as = cs ∧ bs < ds := by
  induction as generalizing cs with
  | nil =>
    obtain rfl := List.eq_nil_of_length_eq_zero hlength.symm
    simp
  | cons a as ih =>
    cases cs with
    | nil => cases hlength
    | cons c cs =>
      simp only [List.cons_append, List.cons_lt_cons_iff, ih (Nat.succ.inj hlength),
        List.cons.injEq]
      tauto

/-! ### Reading a date -/

/-- The number of a year, which may carry a sign. -/
def readYear? : List Char → Option Int
  | '-' :: cs => (readNat? cs).map fun n : ℕ => -(n : Int)
  | '+' :: cs => (readNat? cs).map fun n : ℕ => (n : Int)
  | cs => (readNat? cs).map fun n : ℕ => (n : Int)

/-- A year of digits alone is read as the number that they stand for. -/
lemma readYear?_of_digits {cs : List Char} (h : ∀ c ∈ cs, c.isDigit = true) :
    readYear? cs = (readNat? cs).map fun n : ℕ => (n : Int) := by
  unfold readYear?
  split
  next => exact absurd (h _ List.mem_cons_self) (by decide)
  next => exact absurd (h _ List.mem_cons_self) (by decide)
  next => rfl

namespace Date

/-- The date in a text of year, month and day with slashes between them. -/
def ofText? (text : String) : Option Date :=
  match text.toList.splitOn '/' with
  | [year, month, day] => do ofNumbers? (← readYear? year) (← readNat? month) (← readNat? day)
  | _ => none

/-- The numbers of a date are those of a day that the calendar has. -/
lemma ofNumbers?_self (d : Date) : ofNumbers? d.year d.month d.day = some d :=
  dif_pos ⟨d.one_le_month, d.month_le, d.one_le_day, d.day_le⟩

/-- A year is read back from its text, with a sign or without one. -/
lemma readYear?_yearText (year : Int) : readYear? (yearText year).toList = some year := by
  rw [yearText]
  split
  next hshort =>
    rw [readYear?_of_digits fun c hc => isDigit_of_mem_paddedDigits hc, readNat?_paddedDigits,
      Option.map_some, Int.natAbs_of_nonneg hshort.1]
  next hlong =>
    rw [String.toList_append]
    split
    next hnegative =>
      change (readNat? (paddedDigits 4 year.natAbs).toList).map (fun n : ℕ => -(n : Int)) =
        some year
      rw [readNat?_paddedDigits, Option.map_some, Option.some.injEq]
      omega
    next hpositive =>
      change (readNat? (paddedDigits 4 year.natAbs).toList).map (fun n : ℕ => (n : Int)) = some year
      rw [readNat?_paddedDigits, Option.map_some, Option.some.injEq]
      omega

/-- There is no slash in a padded number. -/
lemma slash_notMem_paddedDigits (width n : ℕ) : '/' ∉ (paddedDigits width n).toList :=
  fun hslash => absurd (isDigit_of_mem_paddedDigits hslash) (by decide)

/-- There is no slash in the text of a year. -/
lemma slash_notMem_yearText (year : Int) : '/' ∉ (yearText year).toList := by
  rw [yearText]
  split
  next => exact slash_notMem_paddedDigits _ _
  next =>
    rw [String.toList_append, List.mem_append, not_or]
    refine ⟨?_, slash_notMem_paddedDigits _ _⟩
    split <;> decide

/-- The text of a date has its three numbers between slashes. -/
lemma toList_text (d : Date) : d.text.toList = ['/'].intercalate
    [(yearText d.year).toList, (paddedDigits 2 d.month).toList, (paddedDigits 2 d.day).toList] := by
  simp [text, List.intercalate]

/-- Every date is read out of its text. -/
theorem ofText?_text (d : Date) : ofText? d.text = some d := by
  have hsplit : d.text.toList.splitOn '/' = [(yearText d.year).toList,
      (paddedDigits 2 d.month).toList, (paddedDigits 2 d.day).toList] := by
    rw [toList_text]
    refine List.splitOn_intercalate '/' ?_ (List.cons_ne_nil _ _)
    intro part hpart
    simp only [List.mem_cons, List.not_mem_nil, or_false] at hpart
    rcases hpart with rfl | rfl | rfl
    · exact slash_notMem_yearText d.year
    · exact slash_notMem_paddedDigits 2 d.month
    · exact slash_notMem_paddedDigits 2 d.day
  rw [ofText?, hsplit]
  simp only [readYear?_yearText, readNat?_paddedDigits, Option.bind_eq_bind, Option.bind_some,
    ofNumbers?_self]

/-- No two dates have the same text. -/
lemma text_injective : Function.Injective text := by
  intro a b hsame
  have hread : ofText? a.text = ofText? b.text := congrArg ofText? hsame
  rw [ofText?_text, ofText?_text] at hread
  exact Option.some.inj hread

/-! ### Years of four digits -/

/-- The years that are written with four digits. -/
def HasShortYear (d : Date) : Prop := 0 ≤ d.year ∧ d.year ≤ 9999

variable {a b d : Date}

/-- A year from 0 to 9999 is written in four digits, without a sign. -/
lemma yearText_of_hasShortYear (h : d.HasShortYear) :
    yearText d.year = paddedDigits 4 d.year.natAbs :=
  if_pos h

/-- A year from 0 to 9999 has four characters. -/
lemma length_year (h : d.HasShortYear) : (paddedDigits 4 d.year.natAbs).toList.length = 4 := by
  obtain ⟨hzero, hlast⟩ := h
  exact length_paddedDigits (by decide) (by omega)

/-- A month has two characters, since no month has a number above 99. -/
lemma length_month (d : Date) : (paddedDigits 2 d.month).toList.length = 2 := by
  have hmonth := d.month_le
  exact length_paddedDigits (by decide) (by omega)

/-- A day has two characters, since no day has a number above 99. -/
lemma length_day (d : Date) : (paddedDigits 2 d.day).toList.length = 2 := by
  have hday := d.day_le
  have hmonth := (daysInMonth_bounds d.year d.month).2
  exact length_paddedDigits (by decide) (by omega)

/-- The text of a date with a short year: four digits, two and two, between slashes. -/
lemma toList_text_of_hasShortYear (h : d.HasShortYear) : d.text.toList =
    (paddedDigits 4 d.year.natAbs).toList ++
      '/' :: ((paddedDigits 2 d.month).toList ++ '/' :: (paddedDigits 2 d.day).toList) := by
  rw [toList_text, yearText_of_hasShortYear h]
  simp [List.intercalate]

/-- The text of a date with a short year has ten characters. -/
lemma length_text (h : d.HasShortYear) : d.text.toList.length = 10 := by
  rw [toList_text_of_hasShortYear h]
  simp only [List.length_append, List.length_cons, length_year h, length_month, length_day]

/-- Texts with four digits for the year are ordered as the dates are. -/
theorem text_lt_iff (ha : a.HasShortYear) (hb : b.HasShortYear) :
    a.text.toList < b.text.toList ↔ a.compare b = .lt := by
  rw [toList_text_of_hasShortYear ha, toList_text_of_hasShortYear hb,
    append_lt_append_iff ((length_year ha).trans (length_year hb).symm), List.cons_lt_cons_self,
    append_lt_append_iff (a.length_month.trans b.length_month.symm), List.cons_lt_cons_self,
    paddedDigits_lt_iff (length_year ha) (length_year hb),
    paddedDigits_lt_iff a.length_month b.length_month,
    paddedDigits_lt_iff a.length_day b.length_day, paddedDigits_inj, paddedDigits_inj, compare]
  simp only [Ordering.then_eq_lt, compare_lt_iff_lt, compare_eq_iff_eq]
  obtain ⟨hazero, -⟩ := ha
  obtain ⟨hbzero, -⟩ := hb
  omega

end Date

/-! ### Dates as literals -/

/-- Quotation marks do not make different texts equal. -/
lemma quoted_inj {s t : String} : quoted s = quoted t ↔ s = t := by
  rw [← String.toList_inj, toList_quoted, toList_quoted, List.cons.injEq,
    List.append_cancel_right_eq, String.toList_inj, and_iff_right rfl]

/-- Quotes do not change the order of texts of one length. -/
lemma quoted_lt_iff {s t : String} (hlength : s.toList.length = t.toList.length) :
    quoted s < quoted t ↔ s.toList < t.toList := by
  rw [String.lt_iff_toList_lt, toList_quoted, toList_quoted, List.cons_lt_cons_self,
    append_lt_append_iff hlength, or_iff_left fun h => lt_irrefl _ h.2]

namespace Value

/-- With four digits for the year the literals are ordered as the dates are. -/
lemma compare_quoted_text {a b : Date} (ha : a.HasShortYear) (hb : b.HasShortYear) :
    Ord.compare (quoted a.text) (quoted b.text) = a.compare b := by
  have hlength : a.text.toList.length = b.text.toList.length :=
    (Date.length_text ha).trans (Date.length_text hb).symm
  have hforth : quoted a.text < quoted b.text ↔ a.compare b = .lt := by
    rw [quoted_lt_iff hlength, Date.text_lt_iff ha hb]
  have hback : quoted b.text < quoted a.text ↔ b.compare a = .lt := by
    rw [quoted_lt_iff hlength.symm, Date.text_lt_iff hb ha]
  rw [Date.compare_eq_compare_dayNumber] at hforth hback ⊢
  rw [compare_lt_iff_lt] at hforth hback
  rcases lt_trichotomy a.dayNumber b.dayNumber with hlt | heq | hgt
  · rw [compare_lt_iff_lt.mpr hlt, compare_lt_iff_lt.mpr (hforth.mpr hlt)]
  · rw [Date.dayNumber_injective heq, compare_eq_iff_eq.mpr rfl, compare_eq_iff_eq.mpr rfl]
  · rw [compare_gt_iff_gt.mpr hgt, compare_gt_iff_gt.mpr (hback.mpr hgt)]

/-- A date-time of a query is its date and nothing else: it has the literal of exactly the
date-times of the same day, and the date is read out of the text between the quotes.  For the years
from `0` to `9999` the literals have twelve characters and are ordered as the dates are.  An instant
with an offset is the day that holds the second which the clock there has come to. -/
theorem jql_dateTime (a b : DateTime) :
    ((dateTime a).jql = (dateTime b).jql ↔ a.date = b.date) ∧
      (∃ text, (dateTime a).jql = quoted text ∧ Date.ofText? text = some a.date) ∧
      (a.date.HasShortYear → (dateTime a).jql.length = 12) ∧
      (a.date.HasShortYear → b.date.HasShortYear →
        Ord.compare (dateTime a).jql (dateTime b).jql = a.date.compare b.date) ∧
      ∀ offset d, (ofInstant a offset).jql = (ofDate d).jql ↔
        86400 * d.dayNumber ≤ a.seconds + offset ∧
          a.seconds + offset < 86400 * (d.dayNumber + 1) := by
  have hsame (s t : DateTime) : (dateTime s).jql = (dateTime t).jql ↔ s.date = t.date := by
    rw [jql, jql, quoted_inj, Date.text_injective.eq_iff]
  refine ⟨hsame a b, ⟨a.date.text, rfl, Date.ofText?_text a.date⟩, fun ha => ?_, fun ha hb => ?_,
    fun offset d => ?_⟩
  · rw [jql, ← String.length_toList, toList_quoted, List.length_cons, List.length_append,
      Date.length_text ha]
    rfl
  · exact compare_quoted_text ha hb
  · rw [ofInstant, ofDate, hsame]
    exact DateTime.date_shift_eq_iff

-- One second after the 28th of February of a leap year.
example : (ofInstant
    ⟨⟨2024, 2, 28, by decide, by decide, by decide, by decide⟩, 86399, 0, by decide, by decide⟩
    1).jql = "\"2024/02/29\"" := by
  decide

end Value

end IssueQuery
