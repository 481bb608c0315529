/-
  IssueTracker/Instant/Rfc3339.lean --- instants as RFC 3339 text.

  `write` gives the one form used in every answer: UTC with `Z`, and no fraction,
  three, six or nine digits of it, the fewest that are exact.  `read?` is more
  lenient: any offset, one digit where two are usual, blanks between the parts, a
  blank in the place of `T`, and any number of fraction digits, of which nine
  count.  Years with more than four digits carry a sign.
-/
import IssueTracker.Instant.Basic
import IssueTracker.Text.Decimal

set_option autoImplicit false

namespace IssueTracker.Instant

/-! ## Writing -/

/-- A number with zeros in front, up to the given width. -/
def padded (width n : Nat) : List Char :=
  let ds := Text.digits n
  List.replicate (width - ds.length) '0' ++ ds

/-- A year: four digits, and a sign outside the years 0 to 9999. -/
def yearChars (year : Int) : List Char :=
  if 0 ≤ year ∧ year ≤ 9999 then padded 4 year.natAbs
  else (if year < 0 then '-' else '+') :: padded 4 year.natAbs

/-- The fraction of a second, in the fewest of three, six or nine digits. -/
def fractionChars (nanos : Nat) : List Char :=
  if nanos = 0 then []
  else if nanos % 1000000 = 0 then '.' :: padded 3 (nanos / 1000000)
  else if nanos % 1000 = 0 then '.' :: padded 6 (nanos / 1000)
  else '.' :: padded 9 nanos

/-- The characters of an instant. -/
def chars (t : Instant) : List Char :=
  let days := t.seconds.fdiv 86400
  let ofDay := (t.seconds - days * 86400).toNat
  let date := Date.ofDays days
  let leap := t.nanos / 1000000000
  yearChars date.year ++ '-' :: padded 2 date.month ++ '-' :: padded 2 date.day ++
    'T' :: padded 2 (ofDay / 3600) ++ ':' :: padded 2 (ofDay / 60 % 60) ++
    ':' :: padded 2 (ofDay % 60 + leap) ++ fractionChars (t.nanos % 1000000000) ++ ['Z']

/-- The text of an instant. -/
def write (t : Instant) : String := String.ofList t.chars

/-! ## Reading -/

/-- Digits, at most `most` of them, after digits of value `acc`. -/
def takeDigits (acc : Nat) : Nat → List Char → Nat × List Char
  | 0, cs => (acc, cs)
  | _, [] => (acc, [])
  | most + 1, c :: cs =>
      match Text.digitValue? c with
      | some d => takeDigits (acc * 10 + d) most cs
      | none => (acc, c :: cs)

/-- A number of one to `most` digits. -/
def takeNumber (most : Nat) : List Char → Option (Nat × List Char)
  | [] => none
  | c :: cs => if Text.isDigit c then some (takeDigits 0 most (c :: cs)) else none

/-- A number of one or two digits, with blanks in front. -/
def takePart (cs : List Char) : Option (Nat × List Char) := takeNumber 2 (Text.trimStart cs)

/-- A year: up to four digits, or any number of them behind a sign. -/
def takeYear (cs : List Char) : Option (Int × List Char) :=
  match Text.trimStart cs with
  | '-' :: r => (takeNumber r.length r).map (fun p => (-(p.1 : Int), p.2))
  | '+' :: r => (takeNumber r.length r).map (fun p => ((p.1 : Int), p.2))
  | r => (takeNumber 4 r).map (fun p => ((p.1 : Int), p.2))

/-- The given character, with blanks in front. -/
def takeMark (mark : Char) (cs : List Char) : Option (List Char) :=
  match Text.trimStart cs with
  | c :: r => if c = mark then some r else none
  | [] => none

/-- The fraction of a second, as nanoseconds; digits past the ninth do not count. -/
def takeFraction : List Char → Option (Nat × List Char)
  | '.' :: cs => do
      let (n, rest) ← takeNumber 9 cs
      return (n * Nat.pow 10 (9 - (cs.length - rest.length)), rest.dropWhile Text.isDigit)
  | cs => some (0, cs)

/-- The letter or blank between date and time. -/
def takeSeparator : List Char → Option (List Char)
  | c :: r => if c = 'T' ∨ c = 't' ∨ c = ' ' then some r else none
  | [] => none

/-- The two digits of the hours or the minutes of an offset. -/
def takeTwoDigits : List Char → Option (Nat × List Char)
  | a :: b :: r => do
      let x ← Text.digitValue? a
      let y ← Text.digitValue? b
      return (x * 10 + y, r)
  | _ => none

/-- Is the character one that may stand between the hours and the minutes? -/
def isOffsetFill (c : Char) : Bool := c == ':' || Text.isBlank c

/-- Hours and minutes of an offset, in seconds, less than a day. -/
def takeOffsetSize (cs : List Char) : Option (Int × List Char) := do
  let (hours, rest) ← takeTwoDigits cs
  let (minutes, rest) ← takeTwoDigits (rest.dropWhile isOffsetFill)
  if hours < 24 ∧ minutes < 60 then some (((hours * 60 + minutes) * 60 : Nat), rest) else none

/-- An offset from UTC in seconds. -/
def takeOffset : List Char → Option (Int × List Char)
  | 'Z' :: r => some (0, r)
  | 'z' :: r => some (0, r)
  | '+' :: r => takeOffsetSize r
  | '-' :: r => (takeOffsetSize r).map (fun p => (-p.1, p.2))
  | '−' :: r => (takeOffsetSize r).map (fun p => (-p.1, p.2))
  | a :: b :: c :: r =>
      if a.toLower = 'u' ∧ b.toLower = 't' ∧ c.toLower = 'c' then some (0, r) else none
  | _ => none

/-- The first and the last year of the calendar. -/
def years : Int × Int := (-262143, 262142)

/-- Is the day in a year of the calendar? -/
def inCalendar (days : Int) : Bool :=
  Date.toDays ⟨years.1, 1, 1⟩ ≤ days && days ≤ Date.toDays ⟨years.2, 12, 31⟩

/-- Is there such a date? -/
def isDate (year : Int) (month day : Nat) : Bool :=
  years.1 ≤ year && year ≤ years.2 && 1 ≤ day && day ≤ Date.daysInMonth year month

/-- Is there such a time of day?  Second sixty is a leap second. -/
def isTime (hour minute second : Nat) : Bool := hour < 24 && minute < 60 && second ≤ 60

/-- Reads an instant. -/
def readChars? (cs : List Char) : Option Instant := do
  let (year, cs) ← takeYear cs
  let cs ← takeMark '-' cs
  let (month, cs) ← takePart cs
  let cs ← takeMark '-' cs
  let (day, cs) ← takePart cs
  let cs ← takeSeparator cs
  let (hour, cs) ← takePart cs
  let cs ← takeMark ':' cs
  let (minute, cs) ← takePart cs
  let cs ← takeMark ':' cs
  let (second, cs) ← takePart cs
  let (fraction, cs) ← takeFraction cs
  let (offset, cs) ← takeOffset (Text.trimStart cs)
  if (Text.trimStart cs).isEmpty && isDate year month day && isTime hour minute second then
    let days := Date.toDays ⟨year, month, day⟩
    let leap := second / 60
    let seconds := days * 86400 + ((hour * 60 + minute) * 60 + (second - leap) : Nat) - offset
    if inCalendar (seconds.fdiv 86400) then
      some ⟨seconds, leap * 1000000000 + fraction⟩
    else none
  else none

/-- Reads an instant. -/
def read? (s : String) : Option Instant := readChars? s.toList

end IssueTracker.Instant
