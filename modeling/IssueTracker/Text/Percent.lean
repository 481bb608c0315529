/-
  IssueTracker/Text/Percent.lean --- percent encoding of bytes.

  `decode` reads `%` and two hexadecimal digits as one byte and keeps a `%` that
  is not followed by two of them.  `encodeByte` is the other direction.
-/
set_option autoImplicit false

namespace IssueTracker.Text.Percent

/-- The value of an ASCII hexadecimal digit, of either case. -/
def hexValue? (b : UInt8) : Option Nat :=
  let n := b.toNat
  if 48 ≤ n ∧ n ≤ 57 then some (n - 48)
  else if 65 ≤ n ∧ n ≤ 70 then some (n - 55)
  else if 97 ≤ n ∧ n ≤ 102 then some (n - 87)
  else none

/-- The bytes with every percent escape replaced by its byte. -/
def decode : List UInt8 → List UInt8
  | [] => []
  | 37 :: h :: l :: rest =>
      match hexValue? h, hexValue? l with
      | some a, some b => (a * 16 + b).toUInt8 :: decode rest
      | _, _ => 37 :: decode (h :: l :: rest)
  | b :: rest => b :: decode rest

/-- The upper case hexadecimal digit of a value below sixteen. -/
def hexUpper (n : Nat) : Char := if n < 10 then Char.ofNat (48 + n) else Char.ofNat (55 + n)

/-- The escape of a byte. -/
def encodeByte (b : UInt8) : List Char :=
  ['%', hexUpper (b.toNat / 16), hexUpper (b.toNat % 16)]

end IssueTracker.Text.Percent
