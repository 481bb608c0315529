/-
  IssueTracker/Proofs/Text/Numeral.lean --- the order of written numbers as texts.

  Numbers of one length are in the order of their texts (`digits_lt_digits`).  A shorter number is
  compared with the first digits of a longer one (`leading`), as many as it has itself, and comes
  before it if it is not greater than they are (`digits_lt_digits_iff`).  So `9` comes before `90`, and
  after `10`.
-/
import IssueTracker.Text.Decimal

set_option autoImplicit false

namespace IssueTracker.Text

variable {m n : Nat}

/-! ## Lengths -/

theorem digits_of_lt (h : n < 10) : digits n = [digitChar n] := by
  rw [digits, if_pos h]

theorem digits_of_not_lt (h : ¬ n < 10) :
    digits n = digits (n / 10) ++ [digitChar (n % 10)] := by
  rw [digits, if_neg h]

theorem length_digits_pos (n : Nat) : 0 < (digits n).length :=
  List.length_pos_iff.2 (digits_ne_nil n)

theorem length_digits_of_not_lt (h : ¬ n < 10) :
    (digits n).length = (digits (n / 10)).length + 1 := by
  rw [digits_of_not_lt h, List.length_append, List.length_singleton]

/-- A number that is not greater is not longer. -/
theorem length_digits_mono (h : m ≤ n) : (digits m).length ≤ (digits n).length := by
  induction n using Nat.strongRecOn generalizing m with
  | _ n ih =>
      by_cases hm : m < 10
      · rw [digits_of_lt hm]
        exact length_digits_pos n
      · have hn : ¬ n < 10 := by omega
        rw [length_digits_of_not_lt hm, length_digits_of_not_lt hn]
        exact Nat.succ_le_succ (ih (n / 10) (by omega) (Nat.div_le_div_right h))

/-! ## Numbers of one length -/

/-- What decides between texts of one length decides between longer ones. -/
theorem append_lt_append {xs ys : List Char} (hlength : xs.length = ys.length) (h : xs < ys)
    (more others : List Char) : xs ++ more < ys ++ others := by
  induction xs generalizing ys with
  | nil =>
      rw [List.length_eq_zero_iff.1 hlength.symm] at h
      exact absurd h (List.lt_irrefl [])
  | cons x xs ih =>
      cases ys with
      | nil => exact absurd hlength (Nat.succ_ne_zero _)
      | cons y ys =>
          rw [List.cons_append, List.cons_append, List.cons_lt_cons_iff]
          rcases List.cons_lt_cons_iff.1 h with hlt | ⟨hsame, hlt⟩
          · exact Or.inl hlt
          · exact Or.inr ⟨hsame, ih (Nat.succ.inj hlength) hlt⟩

theorem digitChar_lt_digitChar (h : m < n) (hn : n < 10) : digitChar m < digitChar n := by
  have hvalue : ∀ d < 10, (digitChar d).toNat = 48 + d := by decide
  rw [Char.lt_def, UInt32.lt_iff_toNat_lt]
  have hm := hvalue m (by omega)
  have hn := hvalue n hn
  simp only [Char.toNat] at hm hn
  omega

/-- Of two numbers of one length, the text of the smaller one comes first. -/
theorem digits_lt_digits (hlength : (digits m).length = (digits n).length) (h : m < n) :
    digits m < digits n := by
  induction n using Nat.strongRecOn generalizing m with
  | _ n ih =>
      by_cases hn : n < 10
      · rw [digits_of_lt (by omega : m < 10), digits_of_lt hn, List.cons_lt_cons_iff]
        exact Or.inl (digitChar_lt_digitChar h hn)
      · have hm : ¬ m < 10 := by
          intro hm
          have hfront := length_digits_pos (n / 10)
          rw [digits_of_lt hm, length_digits_of_not_lt hn, List.length_singleton] at hlength
          omega
        have hfronts : (digits (m / 10)).length = (digits (n / 10)).length := by
          rw [length_digits_of_not_lt hm, length_digits_of_not_lt hn] at hlength
          exact Nat.succ.inj hlength
        rw [digits_of_not_lt hm, digits_of_not_lt hn]
        rcases Nat.lt_or_ge (m / 10) (n / 10) with hfront | hfront
        · exact append_lt_append hfronts (ih (n / 10) (by omega) hfronts hfront) _ _
        · -- The same front, so that the last digits decide.
          have hsame : m / 10 = n / 10 := by omega
          rw [hsame]
          apply List.append_left_lt
          rw [List.cons_lt_cons_iff]
          exact Or.inl (digitChar_lt_digitChar (by omega) (by omega))

/-! ## Numbers of any lengths -/

/-- The number that the first so many digits of a number are. -/
def leading (count n : Nat) : Nat := n / Nat.pow 10 ((digits n).length - count)

theorem leading_self (n : Nat) : leading (digits n).length n = n := by
  rw [leading, Nat.sub_self]
  exact Nat.div_one n

/-- A number in decimal goes on from its first digits. -/
theorem exists_digits_eq_append (n drop : Nat) (h : drop < (digits n).length) :
    ∃ rest, digits n = digits (n / Nat.pow 10 drop) ++ rest ∧ rest.length = drop := by
  induction drop with
  | zero => exact ⟨[], by rw [List.append_nil]; exact congrArg digits (Nat.div_one n).symm, rfl⟩
  | succ drop ih =>
      obtain ⟨rest, hdigits, hlength⟩ := ih (by omega)
      have hfront : ¬ n / Nat.pow 10 drop < 10 := by
        intro hfront
        rw [hdigits, digits_of_lt hfront, List.length_append, List.length_singleton] at h
        omega
      have hdiv : n / Nat.pow 10 drop / 10 = n / Nat.pow 10 (drop + 1) :=
        Nat.div_div_eq_div_mul _ _ _
      rw [digits_of_not_lt hfront, hdiv, List.append_assoc] at hdigits
      exact ⟨_, hdigits, by rw [List.length_append, List.length_singleton]; omega⟩

/-- Of two numbers, the text of the smaller one comes first if and only if it is not greater than
the digits with which the other one begins. -/
theorem digits_lt_digits_iff (h : m < n) :
    digits m < digits n ↔ m ≤ leading (digits m).length n := by
  have hlonger := length_digits_mono (Nat.le_of_lt h)
  have hpos := length_digits_pos m
  obtain ⟨rest, hdigits, hrest⟩ :=
    exists_digits_eq_append n ((digits n).length - (digits m).length) (by omega)
  change digits n = digits (leading (digits m).length n) ++ rest at hdigits
  have hlength : (digits (leading (digits m).length n)).length = (digits m).length := by
    have := congrArg List.length hdigits
    rw [List.length_append] at this
    omega
  rw [hdigits]
  rcases Nat.lt_trichotomy m (leading (digits m).length n) with hlt | heq | hgt
  · refine iff_of_true ?_ (Nat.le_of_lt hlt)
    have hbefore := append_lt_append hlength.symm (digits_lt_digits hlength.symm hlt) [] rest
    rw [List.append_nil] at hbefore
    exact hbefore
  · refine iff_of_true ?_ (Nat.le_of_eq heq)
    -- The shorter one is the beginning of the longer one, which does not end there.
    have hne : rest ≠ [] := by
      rintro rfl
      rw [List.append_nil, ← heq] at hdigits
      exact absurd (digits_injective hdigits) (Nat.ne_of_gt h)
    obtain ⟨c, cs, rfl⟩ := List.exists_cons_of_ne_nil hne
    have hbefore : digits m ++ [] < digits m ++ c :: cs :=
      List.append_left_lt (List.nil_lt_cons c cs)
    rw [List.append_nil] at hbefore
    rw [← heq]
    exact hbefore
  · refine iff_of_false ?_ (Nat.not_le_of_lt hgt)
    have hbefore := append_lt_append hlength (digits_lt_digits hlength hgt) rest []
    rw [List.append_nil] at hbefore
    exact List.lt_asymm hbefore

end IssueTracker.Text
