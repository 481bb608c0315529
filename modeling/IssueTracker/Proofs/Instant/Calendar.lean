/-
  IssueTracker/Proofs/Instant/Calendar.lean --- day numbers and dates.

  Years are counted here from March, so that a leap day is the last day of its year and the
  months before it have their days at fixed places.  An era of four hundred such years has
  146097 days.  Every day number is that of the date which is found for it (`toDays_ofDays`),
  and that date is one of the calendar (`isDate_ofDays`).
-/
import IssueTracker.Instant.Rfc3339

set_option autoImplicit false

namespace IssueTracker

namespace Date

variable {e y m d n : Nat}

/-! ## Days of an era -/

/-- The first day of a year of an era. -/
def yearStart (y : Nat) : Nat := 365 * y + y / 4 - y / 100

/-- The year of an era in which a day lies.  In front of a day there are no more leap days than
there are full spans of four years, less those of a hundred, and the last day of the era is one. -/
def yearOfEra (e : Nat) : Nat := (e - e / 1460 + e / 36524 - e / 146096) / 365

/-- The month, counted from March, in which a day of a year lies. -/
def monthOfYear (n : Nat) : Nat := (5 * n + 2) / 153

/-- The first day of a month, counted from March. -/
def monthStart (m : Nat) : Nat := (153 * m + 2) / 5

theorem yearOfEra_le (he : e ≤ 146096) : yearOfEra e ≤ 399 := by
  unfold yearOfEra
  omega

theorem yearStart_le (he : e ≤ 146096) : yearStart (yearOfEra e) ≤ e := by
  unfold yearStart
  generalize hy : yearOfEra e = y
  unfold yearOfEra at hy
  -- The days of four years are rounded down, so the year can be late in its four.
  rcases Nat.lt_or_ge (e / 1460) (y / 4) with hlate | hlate
  · omega
  · have hcenturies : e / 36524 - e / 146096 ≤ y / 100 := by omega
    omega

theorem le_yearStart (he : e ≤ 146096) : e ≤ yearStart (yearOfEra e) + 365 := by
  unfold yearStart
  generalize hy : yearOfEra e = y
  unfold yearOfEra at hy
  have hcentury : y / 100 ≤ 3 := by omega
  have hfours : 25 * (y / 100) ≤ y / 4 := by omega
  have hlate : e / 1460 ≤ y / 4 + 1 := by omega
  have hlast : e / 146096 = 0 ∨ e = 146096 := by omega
  rcases hlast with hlast | rfl
  · rcases Nat.lt_or_ge (y / 4) (e / 1460) with hfour | hfour
    · have hcenturies : y / 100 ≤ e / 36524 := by omega
      omega
    · have hcenturies : y / 100 ≤ e / 36524 + 1 := by omega
      omega
  · omega

/-- Only a year that ends with the February of a leap year has a day 366. -/
theorem isLeapYear_of_last_day (he : e ≤ 146096) (hlast : e = yearStart (yearOfEra e) + 365)
    (era : Int) : isLeapYear (era * 400 + yearOfEra e + 1) = true := by
  unfold yearStart at hlast
  generalize hy : yearOfEra e = y at hlast
  unfold yearOfEra at hy
  have hcentury : y / 100 ≤ 3 := by omega
  have hend : e / 146096 = 0 ∨ e = 146096 := by omega
  have hfour : y % 4 = 3 := by
    rcases hend with hend | rfl
    · have hcenturies : y / 100 ≤ e / 36524 := by omega
      omega
    · omega
  have hhundred : y % 100 = 99 → y = 399 := by
    intro h
    rcases hend with hend | rfl
    · have hfours : y / 4 = 25 * (y / 100) + 24 := by omega
      omega
    · omega
  simp only [isLeapYear, Bool.and_eq_true, Bool.or_eq_true, beq_iff_eq, bne_iff_ne]
  omega

/-! ## Days of a year -/

theorem monthOfYear_le (hn : n ≤ 365) : monthOfYear n ≤ 11 := by
  unfold monthOfYear
  omega

theorem monthStart_monthOfYear (n : Nat) : monthStart (monthOfYear n) ≤ n := by
  unfold monthStart monthOfYear
  omega

/-! ## Dates -/

/-- The date of day `d`, counted from zero, of a month and a year of an era that are counted from
March. -/
def marchDate (era : Int) (y m d : Nat) : Date :=
  ⟨era * 400 + y + (if m < 10 then 0 else 1), if m < 10 then m + 3 else m - 9, d + 1⟩

theorem toDays_marchDate (era : Int) (hy : y ≤ 399) (hm : m ≤ 11) :
    toDays (marchDate era y m d) =
      era * 146097 + (yearStart y + monthStart m + d : Nat) - 719468 := by
  have hera : (era * 400 + y : Int).fdiv 400 = era := by
    rw [Int.fdiv_eq_ediv_of_nonneg _ (by decide)]
    omega
  have hfours : (era * 400 + y - era * 400 : Int).fdiv 4 = (y / 4 : Nat) := by
    rw [Int.fdiv_eq_ediv_of_nonneg _ (by decide)]
    omega
  have hcenturies : (era * 400 + y - era * 400 : Int).fdiv 100 = (y / 100 : Nat) := by
    rw [Int.fdiv_eq_ediv_of_nonneg _ (by decide)]
    omega
  unfold toDays marchDate yearStart monthStart
  rcases Nat.lt_or_ge m 10 with hearly | hlate
  · have hmarch : ¬ m + 3 ≤ 2 := by omega
    simp only [if_pos hearly, if_neg hmarch, Int.add_zero, hera, hfours, hcenturies]
    omega
  · have hjanuary : ¬ m < 10 := by omega
    have hmarch : m - 9 ≤ 2 := by omega
    simp only [if_neg hjanuary, if_pos hmarch, Int.add_sub_cancel, hera, hfours, hcenturies]
    omega

/-- The day number of a day of an era. -/
def dayNumber (era : Int) (e : Nat) : Int := era * 146097 + e - 719468

/-- Each day number is that of a day of an era. -/
theorem exists_dayNumber (days : Int) : ∃ era e, e ≤ 146096 ∧ days = dayNumber era e := by
  refine ⟨(days + 719468) / 146097, ((days + 719468) % 146097).toNat, ?_, ?_⟩
  · omega
  · unfold dayNumber
    omega

/-- The day of its year that a day of an era is, counted from zero. -/
def dayOfYear (e : Nat) : Nat := e - yearStart (yearOfEra e)

/-- The date of a day of an era. -/
theorem ofDays_dayNumber (era : Int) (he : e ≤ 146096) :
    ofDays (dayNumber era e) =
      marchDate era (yearOfEra e) (monthOfYear (dayOfYear e))
        (dayOfYear e - monthStart (monthOfYear (dayOfYear e))) := by
  have hera : (dayNumber era e + 719468).fdiv 146097 = era := by
    rw [Int.fdiv_eq_ediv_of_nonneg _ (by decide)]
    unfold dayNumber
    omega
  have hday : (dayNumber era e + 719468 - era * 146097).toNat = e := by
    unfold dayNumber
    omega
  have hformed : ofDays (dayNumber era e) =
      let m := monthOfYear (dayOfYear e)
      let month := if m < 10 then m + 3 else m - 9
      let year := era * 400 + yearOfEra e
      ⟨if month ≤ 2 then year + 1 else year, month, dayOfYear e - monthStart m + 1⟩ := by
    simp only [ofDays, hera, hday]
    rfl
  have hmonth : monthOfYear (dayOfYear e) ≤ 11 := by
    apply monthOfYear_le
    have := le_yearStart he
    unfold dayOfYear
    omega
  rw [hformed]
  unfold marchDate
  rcases Nat.lt_or_ge (monthOfYear (dayOfYear e)) 10 with hearly | hlate
  · have hmarch : ¬ monthOfYear (dayOfYear e) + 3 ≤ 2 := by omega
    simp only [if_pos hearly, if_neg hmarch, Int.add_zero]
  · have hjanuary : ¬ monthOfYear (dayOfYear e) < 10 := by omega
    have hmarch : monthOfYear (dayOfYear e) - 9 ≤ 2 := by omega
    simp only [if_neg hjanuary, if_pos hmarch]

/-- The day number of the date that is found for a day number is that day number. -/
theorem toDays_ofDays (days : Int) : toDays (ofDays days) = days := by
  obtain ⟨era, e, he, rfl⟩ := exists_dayNumber days
  have hfirst := yearStart_le he
  have hlast := le_yearStart he
  have hyear : dayOfYear e ≤ 365 := by
    unfold dayOfYear
    omega
  have hmonth := monthStart_monthOfYear (dayOfYear e)
  rw [ofDays_dayNumber era he, toDays_marchDate era (yearOfEra_le he) (monthOfYear_le hyear)]
  unfold dayNumber
  unfold dayOfYear at hmonth ⊢
  omega

/-! ## Valid dates -/

/-- A day lies among those of its month; the last of a year of 366 days is a 29th of February. -/
theorem day_le_daysInMonth (year : Int) (hn : n ≤ 364 ∨ n = 365 ∧ isLeapYear (year + 1) = true) :
    n - monthStart (monthOfYear n) + 1 ≤
      daysInMonth (year + if monthOfYear n < 10 then 0 else 1)
        (if monthOfYear n < 10 then monthOfYear n + 3 else monthOfYear n - 9) := by
  generalize hm : monthOfYear n = m
  unfold monthOfYear at hm
  unfold monthStart daysInMonth
  rcases Nat.lt_or_ge m 10 with hearly | hlate
  · have hmarch : ¬ m + 3 = 2 := by omega
    simp only [if_pos hearly, if_neg hmarch]
    split
    · omega
    · rw [if_pos (by omega)]
      omega
  · have hjanuary : ¬ m < 10 := by omega
    simp only [if_neg hjanuary]
    rcases Nat.lt_or_ge m 11 with h | h
    · obtain rfl : m = 10 := by omega
      rw [if_neg (by decide), if_neg (by decide), if_pos (by decide)]
      omega
    · obtain rfl : m = 11 := by omega
      rw [if_pos rfl]
      rcases hn with hn | ⟨hn, hleap⟩
      · split <;> omega
      · rw [if_pos hleap]
        omega

/-- Only twelve numbers are months, and none has more than 31 days. -/
theorem bounds_of_isDate {year : Int} (h : Instant.isDate year m d = true) : m ≤ 12 ∧ d ≤ 31 := by
  simp only [Instant.isDate, Bool.and_eq_true, decide_eq_true_eq] at h
  obtain ⟨⟨-, hday⟩, hdays⟩ := h
  unfold daysInMonth at hdays
  rcases Nat.lt_or_ge 12 m with hm | hm
  · rw [if_neg (by omega), if_neg (by omega), if_neg (by omega)] at hdays
    omega
  · refine ⟨hm, Nat.le_trans hdays ?_⟩
    repeat' split
    all_goals decide

/-- The first and the last day of the calendar, in years that are counted from March. -/
theorem inCalendar_iff {days : Int} :
    Instant.inCalendar days = true ↔
      dayNumber (-656) (yearStart 256 + monthStart 10) ≤ days ∧
        days ≤ dayNumber 655 (yearStart 142 + monthStart 9 + 30) := by
  have hfirst : toDays ⟨Instant.years.1, 1, 1⟩ =
      dayNumber (-656) (yearStart 256 + monthStart 10) := rfl
  have hlast : toDays ⟨Instant.years.2, 12, 31⟩ =
      dayNumber 655 (yearStart 142 + monthStart 9 + 30) := rfl
  rw [Instant.inCalendar, hfirst, hlast, Bool.and_eq_true, decide_eq_true_eq, decide_eq_true_eq]

/-- The day of its year that a day of an era is, is there in that year. -/
theorem dayOfYear_le (era : Int) (he : e ≤ 146096) :
    dayOfYear e ≤ 364 ∨
      dayOfYear e = 365 ∧ isLeapYear (era * 400 + yearOfEra e + 1) = true := by
  have hfirst := yearStart_le he
  have hlast := le_yearStart he
  rcases Nat.lt_or_ge (dayOfYear e) 365 with hn | hn
  · exact Or.inl (Nat.le_of_lt_succ hn)
  · unfold dayOfYear at *
    exact Or.inr ⟨by omega, isLeapYear_of_last_day he (by omega) era⟩

/-- A day of the calendar lies in a year of the calendar. -/
theorem years_of_inCalendar {era : Int} (he : e ≤ 146096)
    (h : Instant.inCalendar (dayNumber era e) = true) :
    Instant.years.1 ≤
        era * 400 + yearOfEra e + (if monthOfYear (dayOfYear e) < 10 then 0 else 1) ∧
      era * 400 + yearOfEra e + (if monthOfYear (dayOfYear e) < 10 then 0 else 1) ≤
        Instant.years.2 := by
  rw [inCalendar_iff] at h
  have hyear := yearOfEra_le he
  have hfirst := yearStart_le he
  have hday := dayOfYear_le era he
  unfold dayNumber dayOfYear yearStart monthStart monthOfYear Instant.years at *
  constructor
  · have hera : era = -656 ∨ -655 ≤ era := by omega
    rcases hera with rfl | hera <;> split <;> omega
  · have hera : era = 655 ∨ era ≤ 654 := by omega
    rcases hera with rfl | hera <;> split <;> omega

/-- The date of a day of the calendar is one of the calendar. -/
theorem isDate_ofDays {days : Int} (h : Instant.inCalendar days = true) :
    Instant.isDate (ofDays days).year (ofDays days).month (ofDays days).day = true := by
  obtain ⟨era, e, he, rfl⟩ := exists_dayNumber days
  obtain ⟨hfirst, hlast⟩ := years_of_inCalendar he h
  rw [ofDays_dayNumber era he, Instant.isDate]
  simp only [Bool.and_eq_true, decide_eq_true_eq]
  exact ⟨⟨⟨hfirst, hlast⟩, Nat.le_add_left _ _⟩, day_le_daysInMonth _ (dayOfYear_le era he)⟩

end Date

end IssueTracker
