/-
  IssueTracker/Text/Decimal.lean --- whole numbers in decimal text.

  `digits` writes a number without leading zeros; `digitsValue?` reads a run of
  digits, leading zeros allowed.  The readers with a range, `unsigned?` and
  `signed?`, also take one sign in front: a plus sign for both, a minus sign for
  the signed one.  Blanks, an empty run and a value out of range are refused.
-/
import IssueTracker.Text.Blank

set_option autoImplicit false

namespace IssueTracker.Text

/-- The largest number of 64 bits. -/
def maxWord64 : Nat := 0xFFFFFFFFFFFFFFFF

/-- The largest signed number of 64 bits. -/
def maxSigned64 : Nat := 0x7FFFFFFFFFFFFFFF

/-- The character of a digit below ten. -/
def digitChar (d : Nat) : Char := Char.ofNat (48 + d)

/-- The value of an ASCII digit. -/
def digitValue? (c : Char) : Option Nat :=
  if 48 ≤ c.toNat ∧ c.toNat ≤ 57 then some (c.toNat - 48) else none

/-- Is the character one of the ten ASCII digits? -/
def isDigit (c : Char) : Bool := (digitValue? c).isSome

/-- A number in decimal, without leading zeros. -/
def digits (n : Nat) : List Char :=
  if n < 10 then [digitChar n] else digits (n / 10) ++ [digitChar (n % 10)]

/-- A number in decimal, as text. -/
def decimal (n : Nat) : String := String.ofList (digits n)

/-- A whole number in decimal, as text: a minus sign in front of the negative ones. -/
def signedDecimal : Int → String
  | .ofNat n => decimal n
  | .negSucc n => "-" ++ decimal (n + 1)

/-- The value of further digits after digits of value `acc`. -/
def digitsValueFrom? (acc : Nat) : List Char → Option Nat
  | [] => some acc
  | c :: cs =>
      match digitValue? c with
      | some d => digitsValueFrom? (acc * 10 + d) cs
      | none => none

/-- The value of a non-empty run of digits. -/
def digitsValue? : List Char → Option Nat
  | [] => none
  | c :: cs => digitsValueFrom? 0 (c :: cs)

/-- Reads an unsigned number of at most `limit`; one plus sign is allowed. -/
def unsigned? (limit : Nat) (cs : List Char) : Option Nat :=
  let run := match cs with
    | '+' :: rest => rest
    | rest => rest
  (digitsValue? run).filter (· ≤ limit)

/-- Reads a signed 64-bit number; one sign is allowed. -/
def signed? (cs : List Char) : Option Int :=
  match cs with
  | '-' :: rest => ((digitsValue? rest).filter (· ≤ maxSigned64 + 1)).map (fun n => -(n : Int))
  | rest => (unsigned? maxSigned64 rest).map (fun n => (n : Int))

@[simp] theorem digitValue?_digitChar {d : Nat} (h : d < 10) :
    digitValue? (digitChar d) = some d := by
  have hv : (48 + d).isValidChar := by simp only [Nat.isValidChar]; omega
  have ht : (digitChar d).toNat = 48 + d := by
    rw [digitChar, Char.ofNat, dif_pos hv]
    rfl
  simp only [digitValue?, ht]
  rw [if_pos (by omega)]
  simp

theorem digitsValueFrom?_append (acc : Nat) (xs ys : List Char) :
    digitsValueFrom? acc (xs ++ ys) =
      (digitsValueFrom? acc xs).bind (fun n => digitsValueFrom? n ys) := by
  induction xs generalizing acc with
  | nil => rfl
  | cons c cs ih =>
      simp only [List.cons_append, digitsValueFrom?]
      cases digitValue? c with
      | none => rfl
      | some d => exact ih _

theorem digits_ne_nil (n : Nat) : digits n ≠ [] := by
  rw [digits]
  split <;> simp

/-- Written digits read back as the number. -/
theorem digitsValueFrom?_digits (n : Nat) : digitsValueFrom? 0 (digits n) = some n := by
  induction n using Nat.strongRecOn with
  | _ n ih =>
      rw [digits]
      by_cases h : n < 10
      · simp [h, digitsValueFrom?]
      · have hd : n % 10 < 10 := Nat.mod_lt _ (by decide)
        have hq : n / 10 < n := Nat.div_lt_self (by omega) (by decide)
        simp only [h, if_false, digitsValueFrom?_append, ih _ hq, Option.bind_some,
          digitsValueFrom?, digitValue?_digitChar hd]
        congr 1
        omega

@[simp] theorem digitsValue?_digits (n : Nat) : digitsValue? (digits n) = some n := by
  cases h : digits n with
  | nil => exact absurd h (digits_ne_nil n)
  | cons c cs => simp only [digitsValue?]; rw [← h]; exact digitsValueFrom?_digits n

/-- A written number consists of digits. -/
theorem isDigit_of_mem_digits {n : Nat} {c : Char} (h : c ∈ digits n) : isDigit c = true := by
  induction n using Nat.strongRecOn with
  | _ n ih =>
      rw [digits] at h
      by_cases hn : n < 10
      · rw [if_pos hn, List.mem_singleton] at h
        rw [h, isDigit, digitValue?_digitChar hn]
        rfl
      · rw [if_neg hn, List.mem_append, List.mem_singleton] at h
        rcases h with h | h
        · exact ih _ (Nat.div_lt_self (by omega) (by decide)) h
        · rw [h, isDigit, digitValue?_digitChar (Nat.mod_lt _ (by decide))]
          rfl

/-- What is no digit does not stand in a written number. -/
theorem not_mem_digits {c : Char} (h : isDigit c = false) (n : Nat) : c ∉ digits n := by
  intro hmem
  rw [isDigit_of_mem_digits hmem] at h
  exact absurd h (by decide)

/-- A written number in range reads back. -/
theorem unsigned?_digits {limit n : Nat} (h : n ≤ limit) :
    unsigned? limit (digits n) = some n := by
  have hplus : ∀ rest, digits n = '+' :: rest → False := by
    intro rest hdigits
    have hmem : '+' ∈ digits n := hdigits ▸ List.mem_cons_self
    exact not_mem_digits rfl n hmem
  rw [unsigned?, digitsValue?_digits, Option.filter_some, if_pos (by simpa using h)]
  exact hplus

/-- Different numbers are written differently. -/
theorem digits_injective {m n : Nat} (h : digits m = digits n) : m = n := by
  have := congrArg digitsValue? h
  simpa using this

end IssueTracker.Text
