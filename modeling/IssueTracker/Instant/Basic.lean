/-
  IssueTracker/Instant/Basic.lean --- points in time and the calendar.

  An instant is a number of seconds since the start of 1970 in UTC and a number of
  nanoseconds in that second.  A leap second is the second before it with a
  thousand million nanoseconds and more, so that instants are ordered by seconds,
  then nanoseconds.

  Days are counted in the proleptic Gregorian calendar, by eras of four hundred
  years that start on the first of March.
-/
set_option autoImplicit false

namespace IssueTracker

/-- A point in time. -/
structure Instant where
  /-- Seconds since 1970-01-01T00:00:00Z. -/
  seconds : Int
  /-- Nanoseconds in the second; a leap second has a thousand million and more. -/
  nanos : Nat
  deriving DecidableEq, Repr, Inhabited

namespace Instant

/-- Is the first instant not after the second? -/
def notAfter (a b : Instant) : Bool :=
  a.seconds < b.seconds || (a.seconds == b.seconds && a.nanos ≤ b.nanos)

theorem notAfter_iff {a b : Instant} :
    a.notAfter b = true ↔ a.seconds < b.seconds ∨ (a.seconds = b.seconds ∧ a.nanos ≤ b.nanos) := by
  simp [notAfter]

theorem notAfter_refl (a : Instant) : a.notAfter a = true := by
  simp [notAfter]

theorem notAfter_trans {a b c : Instant} (h₁ : a.notAfter b = true) (h₂ : b.notAfter c = true) :
    a.notAfter c = true := by
  rw [notAfter_iff] at *
  omega

theorem notAfter_antisymm {a b : Instant} (h₁ : a.notAfter b = true) (h₂ : b.notAfter a = true) :
    a = b := by
  rw [notAfter_iff] at h₁ h₂
  cases a
  cases b
  simp only [mk.injEq] at *
  omega

end Instant

/-- A day of the Gregorian calendar. -/
structure Date where
  year : Int
  month : Nat
  day : Nat
  deriving DecidableEq, Repr, Inhabited

namespace Date

/-- Has the year a 29th of February? -/
def isLeapYear (year : Int) : Bool :=
  year % 4 == 0 && (year % 100 != 0 || year % 400 == 0)

/-- The days of a month; none for a number that is no month. -/
def daysInMonth (year : Int) (month : Nat) : Nat :=
  if month = 2 then if isLeapYear year then 29 else 28
  else if month = 4 ∨ month = 6 ∨ month = 9 ∨ month = 11 then 30
  else if 1 ≤ month ∧ month ≤ 12 then 31
  else 0

/-- The days from 1970-01-01 to the date. -/
def toDays (d : Date) : Int :=
  let year := if d.month ≤ 2 then d.year - 1 else d.year
  let era := year.fdiv 400
  let yearOfEra := year - era * 400
  let dayOfYear : Int := (153 * ((d.month + 9) % 12) + 2) / 5 + d.day - 1
  let dayOfEra := yearOfEra * 365 + yearOfEra.fdiv 4 - yearOfEra.fdiv 100 + dayOfYear
  era * 146097 + dayOfEra - 719468

/-- The date so many days after 1970-01-01. -/
def ofDays (days : Int) : Date :=
  let z := days + 719468
  let era := z.fdiv 146097
  let dayOfEra := (z - era * 146097).toNat
  let yearOfEra :=
    (dayOfEra - dayOfEra / 1460 + dayOfEra / 36524 - dayOfEra / 146096) / 365
  let dayOfYear := dayOfEra - (365 * yearOfEra + yearOfEra / 4 - yearOfEra / 100)
  let fromMarch := (5 * dayOfYear + 2) / 153
  let month := if fromMarch < 10 then fromMarch + 3 else fromMarch - 9
  let year := era * 400 + yearOfEra
  ⟨if month ≤ 2 then year + 1 else year, month, dayOfYear - (153 * fromMarch + 2) / 5 + 1⟩

end Date

end IssueTracker
