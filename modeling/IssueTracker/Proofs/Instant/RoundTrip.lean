/-
  IssueTracker/Proofs/Instant/RoundTrip.lean --- written instants read back.

  Every part of a written instant is a padded number in front of a character that is no digit,
  so each part is read to its end (`takeNumber_padded`).  Together with the calendar, this gives
  that an instant which a clock can show is read from its text again (`read?_write`).
-/
import IssueTracker.Proofs.Instant.Calendar

set_option autoImplicit false

namespace IssueTracker

namespace Instant

variable {c : Char} {cs ds rest : List Char} {acc most v width n : Nat}

/-! ## Padded numbers -/

/-- Does a run of digits end before this text? -/
def EndsDigits (cs : List Char) : Prop := ∀ c, cs.head? = some c → Text.isDigit c = false

theorem endsDigits_cons (h : Text.isDigit c = false) : EndsDigits (c :: cs) := by
  rintro d ⟨⟩
  exact h

theorem isDigit_of_mem_padded (h : c ∈ padded width n) : Text.isDigit c = true := by
  rw [padded, List.mem_append] at h
  rcases h with h | h
  · rw [List.eq_of_mem_replicate h]
    rfl
  · exact Text.isDigit_of_mem_digits h

theorem digitsValueFrom?_zeros (k : Nat) (cs : List Char) :
    Text.digitsValueFrom? 0 (List.replicate k '0' ++ cs) = Text.digitsValueFrom? 0 cs := by
  induction k with
  | zero => rfl
  | succ k ih => exact ih

/-- Zeros in front do not change a number. -/
theorem digitsValueFrom?_padded (width n : Nat) :
    Text.digitsValueFrom? 0 (padded width n) = some n := by
  rw [padded, digitsValueFrom?_zeros, Text.digitsValueFrom?_digits]

theorem length_digits_le (h : n < Nat.pow 10 (width + 1)) :
    (Text.digits n).length ≤ width + 1 := by
  induction width generalizing n with
  | zero =>
      rw [Text.digits, if_pos h]
      exact Nat.le_refl _
  | succ width ih =>
      rw [Text.digits]
      split
      · exact Nat.le_add_left _ _
      · have hq : n / 10 < Nat.pow 10 (width + 1) := by
          rw [Nat.div_lt_iff_lt_mul (by decide)]
          exact h
        rw [List.length_append]
        exact Nat.succ_le_succ (ih hq)

/-- A number that has room is as wide as it is asked to be. -/
theorem length_padded (h : n < Nat.pow 10 (width + 1)) :
    (padded (width + 1) n).length = width + 1 := by
  have := length_digits_le h
  rw [padded, List.length_append, List.length_replicate]
  omega

/-- A number starts with a digit. -/
theorem padded_head (width n : Nat) :
    ∃ c cs, padded width n = c :: cs ∧ Text.isDigit c = true := by
  cases hpadded : padded width n with
  | nil =>
      have hempty := (List.append_eq_nil_iff.1 hpadded).2
      exact absurd hempty (Text.digits_ne_nil n)
  | cons c cs => exact ⟨c, cs, rfl, isDigit_of_mem_padded (hpadded ▸ List.mem_cons_self)⟩

/-! ## Reading numbers -/

theorem takeDigits_of_endsDigits (h : EndsDigits cs) : takeDigits acc most cs = (acc, cs) := by
  cases most with
  | zero => rw [takeDigits]
  | succ most =>
      cases cs with
      | nil => simp only [takeDigits]
      | cons c cs =>
          have hc := h c rfl
          rw [Text.isDigit, Option.isSome_eq_false_iff, Option.isNone_iff_eq_none] at hc
          rw [takeDigits, hc]

/-- A run of digits is read to its end. -/
theorem takeDigits_append (hvalue : Text.digitsValueFrom? acc ds = some v)
    (hlength : ds.length ≤ most) (hrest : EndsDigits rest) :
    takeDigits acc most (ds ++ rest) = (v, rest) := by
  induction ds generalizing acc most with
  | nil =>
      rw [Text.digitsValueFrom?, Option.some.injEq] at hvalue
      rw [List.nil_append, takeDigits_of_endsDigits hrest, hvalue]
  | cons c ds ih =>
      cases most with
      | zero => exact absurd hlength (Nat.not_succ_le_zero _)
      | succ most =>
          rw [Text.digitsValueFrom?] at hvalue
          cases hc : Text.digitValue? c with
          | none =>
              rw [hc] at hvalue
              cases hvalue
          | some d =>
              rw [hc] at hvalue
              rw [List.cons_append, takeDigits, hc]
              exact ih hvalue (Nat.le_of_succ_le_succ hlength)

theorem takeNumber_padded (hlength : (padded width n).length ≤ most) (hrest : EndsDigits rest) :
    takeNumber most (padded width n ++ rest) = some (n, rest) := by
  obtain ⟨c, cs, hpadded, hc⟩ := padded_head width n
  have htake := takeDigits_append (digitsValueFrom?_padded width n) hlength hrest
  rw [hpadded, List.cons_append] at htake ⊢
  rw [takeNumber, if_pos hc, htake]

/-! ## Reading the parts -/

theorem isBlank_of_isDigit (h : Text.isDigit c = true) : Text.isBlank c = false := by
  simp only [Text.isDigit, Text.digitValue?] at h
  split at h
  · next hrange =>
      simp only [Text.isBlank, Bool.or_eq_false_iff, Bool.and_eq_false_iff, beq_eq_false_iff_ne,
        decide_eq_false_iff_not]
      omega
  · cases h

theorem trimStart_cons (h : Text.isBlank c = false) : Text.trimStart (c :: cs) = c :: cs :=
  List.dropWhile_cons_of_neg (by simp [h])

theorem trimStart_padded (width n : Nat) (rest : List Char) :
    Text.trimStart (padded width n ++ rest) = padded width n ++ rest := by
  obtain ⟨c, cs, hpadded, hc⟩ := padded_head width n
  rw [hpadded, List.cons_append, trimStart_cons (isBlank_of_isDigit hc)]

theorem takePart_padded (h : n < 100) (hrest : EndsDigits rest) :
    takePart (padded 2 n ++ rest) = some (n, rest) := by
  have hlength : (padded 2 n).length = 2 := length_padded h
  rw [takePart, trimStart_padded, takeNumber_padded (Nat.le_of_eq hlength) hrest]

theorem takeMark_cons (h : Text.isBlank c = false) : takeMark c (c :: cs) = some cs := by
  rw [takeMark, trimStart_cons h]
  exact if_pos rfl

/-- A year is read with its sign, or up to its fourth digit. -/
theorem takeYear_yearChars (year : Int) (hrest : EndsDigits rest) :
    takeYear (yearChars year ++ rest) = some (year, rest) := by
  unfold yearChars
  split
  · next hrange =>
      obtain ⟨c, cs, hpadded, hc⟩ := padded_head 4 year.natAbs
      have hlength : (padded 4 year.natAbs).length = 4 := length_padded (by
        show year.natAbs < 10000
        omega)
      have htake := takeNumber_padded (Nat.le_of_eq hlength) hrest
      rw [takeYear, trimStart_padded]
      split
      · next heq =>
          rw [hpadded] at heq
          obtain ⟨rfl, -⟩ := List.cons.inj heq
          cases hc
      · next heq =>
          rw [hpadded] at heq
          obtain ⟨rfl, -⟩ := List.cons.inj heq
          cases hc
      · rw [htake, Option.map_some]
        simp only [Int.natAbs_of_nonneg hrange.1]
  · next hrange =>
      have hlength : (padded 4 year.natAbs).length ≤ (padded 4 year.natAbs ++ rest).length := by
        simp
      have htake := takeNumber_padded hlength hrest
      rcases Int.lt_or_le year 0 with hneg | hpos
      · rw [if_pos hneg, List.cons_append, takeYear, trimStart_cons rfl]
        simp only [htake, Option.map_some]
        congr 2
        omega
      · rw [if_neg (by omega), List.cons_append, takeYear, trimStart_cons rfl]
        simp only [htake, Option.map_some]
        congr 2
        omega

/-- The fraction, in whichever of its three widths it is written. -/
theorem takeFraction_padded (hwidth : width ≤ 8) (h : n < Nat.pow 10 (width + 1))
    (hrest : EndsDigits rest) :
    takeFraction ('.' :: (padded (width + 1) n ++ rest)) =
      some (n * Nat.pow 10 (8 - width), rest) := by
  have hlength := length_padded h
  have htake := takeNumber_padded (Nat.le_trans (Nat.le_of_eq hlength) (Nat.succ_le_succ hwidth))
    hrest
  have hwhole : rest.dropWhile Text.isDigit = rest := by
    cases rest with
    | nil => rfl
    | cons c cs => exact List.dropWhile_cons_of_neg (by simp [hrest c rfl])
  have hdigits : 9 - ((padded (width + 1) n ++ rest).length - rest.length) = 8 - width := by
    rw [List.length_append, hlength]
    omega
  simp only [takeFraction, htake, Option.bind_eq_bind, Option.bind_some, hdigits, hwhole]
  rfl

theorem takeFraction_fractionChars {nanos : Nat} (h : nanos < 1000000000) :
    takeFraction (fractionChars nanos ++ ['Z']) = some (nanos, ['Z']) := by
  have hend : EndsDigits ['Z'] := endsDigits_cons rfl
  unfold fractionChars
  split
  · next hzero =>
      rw [hzero]
      rfl
  · split
    · have htake := @takeFraction_padded ['Z'] 2 (nanos / 1000000) (by decide)
        (by show _ < 1000; omega) hend
      rw [List.cons_append, htake]
      congr 2
      show nanos / 1000000 * 1000000 = nanos
      omega
    · split
      · have htake := @takeFraction_padded ['Z'] 5 (nanos / 1000) (by decide)
          (by show _ < 1000000; omega) hend
        rw [List.cons_append, htake]
        congr 2
        show nanos / 1000 * 1000 = nanos
        omega
      · have htake := @takeFraction_padded ['Z'] 8 nanos (by decide) h hend
        rw [List.cons_append, htake]
        congr 2
        exact Nat.mul_one nanos

theorem endsDigits_fractionChars (nanos : Nat) : EndsDigits (fractionChars nanos ++ ['Z']) := by
  unfold fractionChars
  split
  · exact endsDigits_cons rfl
  · split
    · exact endsDigits_cons rfl
    · split <;> exact endsDigits_cons rfl

/-! ## Instants -/

/-- The characters of a date, a time of day and a fraction of a second, in UTC. -/
def partChars (date : Date) (hour minute second fraction : Nat) : List Char :=
  yearChars date.year ++ '-' :: padded 2 date.month ++ '-' :: padded 2 date.day ++
    'T' :: padded 2 hour ++ ':' :: padded 2 minute ++ ':' :: padded 2 second ++
    fractionChars fraction ++ ['Z']

/-- A date and a time are read as the seconds up to them. -/
theorem readChars?_partChars {date : Date} {hour minute second fraction : Nat}
    (hdate : isDate date.year date.month date.day = true)
    (htime : isTime hour minute second = true) (hfraction : fraction < 1000000000)
    (hday : inCalendar (((date.toDays * 86400 +
      ((hour * 60 + minute) * 60 + (second - second / 60) : Nat)) : Int).fdiv 86400) = true) :
    readChars? (partChars date hour minute second fraction) =
      some ⟨date.toDays * 86400 + ((hour * 60 + minute) * 60 + (second - second / 60) : Nat),
        second / 60 * 1000000000 + fraction⟩ := by
  obtain ⟨hmonth, hdom⟩ := Date.bounds_of_isDate hdate
  have hclock : hour < 24 ∧ minute < 60 ∧ second ≤ 60 := by
    simpa [isTime, and_assoc] using htime
  have htext : readChars? (partChars date hour minute second fraction) =
      readChars? (yearChars date.year ++ '-' :: (padded 2 date.month ++ '-' ::
        (padded 2 date.day ++ 'T' :: (padded 2 hour ++ ':' :: (padded 2 minute ++ ':' ::
          (padded 2 second ++ (fractionChars fraction ++ ['Z']))))))) := by
    simp only [partChars, List.append_assoc, List.cons_append]
  rw [htext]
  refine Option.bind_eq_some_iff.2 ⟨_, takeYear_yearChars _ (endsDigits_cons rfl), ?_⟩
  refine Option.bind_eq_some_iff.2 ⟨_, takeMark_cons rfl, ?_⟩
  refine Option.bind_eq_some_iff.2 ⟨_, takePart_padded (by omega) (endsDigits_cons rfl), ?_⟩
  refine Option.bind_eq_some_iff.2 ⟨_, takeMark_cons rfl, ?_⟩
  refine Option.bind_eq_some_iff.2 ⟨_, takePart_padded (by omega) (endsDigits_cons rfl), ?_⟩
  refine Option.bind_eq_some_iff.2 ⟨_, rfl, ?_⟩
  refine Option.bind_eq_some_iff.2 ⟨_, takePart_padded (by omega) (endsDigits_cons rfl), ?_⟩
  refine Option.bind_eq_some_iff.2 ⟨_, takeMark_cons rfl, ?_⟩
  refine Option.bind_eq_some_iff.2 ⟨_, takePart_padded (by omega) (endsDigits_cons rfl), ?_⟩
  refine Option.bind_eq_some_iff.2 ⟨_, takeMark_cons rfl, ?_⟩
  refine Option.bind_eq_some_iff.2
    ⟨_, takePart_padded (by omega) (endsDigits_fractionChars fraction), ?_⟩
  refine Option.bind_eq_some_iff.2 ⟨_, takeFraction_fractionChars hfraction, ?_⟩
  refine Option.bind_eq_some_iff.2 ⟨_, rfl, ?_⟩
  simp only [Text.trimStart, List.dropWhile_nil, List.isEmpty_nil, hdate, htime, Bool.and_true,
    if_true, Int.sub_zero, hday]

/-- Can a clock show the instant?  Its day is one of the calendar, and only the last second of a
minute is followed by a leap second. -/
structure Shown (t : Instant) : Prop where
  day : inCalendar (t.seconds.fdiv 86400) = true
  nanos : t.nanos < 1000000000 ∨ t.nanos < 2000000000 ∧ t.seconds % 60 = 59

/-- An instant that a clock can show is read from its text. -/
theorem read?_write {t : Instant} (h : t.Shown) : read? t.write = some t := by
  obtain ⟨hday, hnanos⟩ := h
  rw [read?, write, String.toList_ofList]
  generalize hdays : t.seconds.fdiv 86400 = days at hday
  generalize hofDay : (t.seconds - days * 86400).toNat = ofDay
  have hchars : t.chars = partChars (Date.ofDays days) (ofDay / 3600) (ofDay / 60 % 60)
      (ofDay % 60 + t.nanos / 1000000000) (t.nanos % 1000000000) := by
    rw [← hofDay, ← hdays]
    rfl
  rw [Int.fdiv_eq_ediv_of_nonneg _ (by decide)] at hdays
  have hseconds : t.seconds = days * 86400 + ofDay := by omega
  -- A leap second is written as second sixty, and read as the second before it.
  have hsplit : (ofDay / 3600 * 60 + ofDay / 60 % 60) * 60 +
        (ofDay % 60 + t.nanos / 1000000000 - (ofDay % 60 + t.nanos / 1000000000) / 60) = ofDay ∧
      (ofDay % 60 + t.nanos / 1000000000) / 60 = t.nanos / 1000000000 := by
    omega
  have htime : isTime (ofDay / 3600) (ofDay / 60 % 60) (ofDay % 60 + t.nanos / 1000000000) =
      true := by
    simp only [isTime, Bool.and_eq_true, decide_eq_true_eq]
    omega
  rw [hchars, readChars?_partChars (Date.isDate_ofDays hday) htime (Nat.mod_lt _ (by decide))]
  · rw [Date.toDays_ofDays, hsplit.1, hsplit.2, ← hseconds, Nat.div_add_mod']
  · rw [Date.toDays_ofDays, hsplit.1, ← hseconds, Int.fdiv_eq_ediv_of_nonneg _ (by decide), hdays]
    exact hday

end Instant

end IssueTracker
