/-
  IssueTracker/Json/Numeral.lean --- the value of a written number.

  A number without point and exponent is a whole number if it fits into 64 bits,
  unsigned or, with a minus sign, signed; minus zero is not one.  Every other
  number is a double.  Its digits are kept exactly as far as they fit into 64
  bits; the double is the digits, rounded, times or over the power of ten,
  rounded again.  A number past the greatest double has no value.
-/
import IssueTracker.Double.Basic
import IssueTracker.Json.Doc

set_option autoImplicit false

namespace IssueTracker.Json

/-- The value of a number. -/
inductive Number where
  | int (n : Int)
  | real (x : Double)
  deriving DecidableEq, Repr, Inhabited

/-- The digits before the point: kept while they fit, then counted. -/
def gatherWhole (acc : Nat) : List Nat → Nat × Nat
  | [] => (acc, 0)
  | d :: ds =>
      if acc * 10 + d ≤ Text.maxWord64 then gatherWhole (acc * 10 + d) ds
      else (acc, ds.length + 1)

/-- The digits behind the point: kept while they fit, then left out; with the number
of those kept. -/
def gatherFraction (acc : Nat) : List Nat → Nat × Nat
  | [] => (acc, 0)
  | d :: ds =>
      if acc * 10 + d ≤ Text.maxWord64 then
        let (n, k) := gatherFraction (acc * 10 + d) ds
        (n, k + 1)
      else (acc, 0)

/-- The greatest power of ten that is a double. -/
def greatestPower : Nat := 308

/-- `x · 10 ^ e` in steps that each round: one multiplication, or divisions by powers
of ten of at most 308.  A significand of 64 bits is zero after three of them. -/
def scaleByTen? : Nat → Double → Int → Option Double
  | steps, x, e =>
      if e.natAbs ≤ greatestPower then do
        let power ← Double.ofNat? (Nat.pow 10 e.natAbs)
        if 0 ≤ e then x.mul? power else x.div? power
      else if x.isZero then some x
      else if 0 ≤ e then none
      else
        match steps with
        | 0 => some x
        | steps + 1 => do
            let power ← Double.ofNat? (Nat.pow 10 greatestPower)
            let y ← x.div? power
            scaleByTen? steps y (e + greatestPower)

/-- The double that the digits and the exponent of a number stand for. -/
def Numeral.real? (n : Numeral) : Option Double := do
  let (whole, dropped) := gatherWhole 0 n.whole
  let (significand, behind) := gatherFraction whole (n.fraction.getD [])
  let x ← Double.ofNat? significand
  let y ← scaleByTen? 3 x (n.exponent.getD 0 + (dropped : Int) - (behind : Int))
  return if n.negative then y.neg else y

/-- Is the number written without point and exponent, and does it fit? -/
def Numeral.int? (n : Numeral) : Option Int :=
  match n.fraction, n.exponent with
  | none, none =>
      let v := valueOfDigits n.whole
      if n.negative then
        if 0 < v ∧ v ≤ Text.maxSigned64 + 1 then some (-(v : Int)) else none
      else if v ≤ Text.maxWord64 then some v
      else none
  | _, _ => none

/-- The value of the number; `none` past the greatest double. -/
def Numeral.value? (n : Numeral) : Option Number :=
  match n.int? with
  | some i => some (.int i)
  | none => n.real?.map .real

/-- Why a value is refused where another kind is wanted.  A number past the greatest
double and a string that is no text are malformed before their kind matters. -/
def Doc.refusal : Doc → Fault
  | .number n => if n.value?.isSome then .mismatch else .malformed
  | .text none => .malformed
  | .broken => .malformed
  | _ => .mismatch

end IssueTracker.Json
