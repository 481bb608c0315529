/-
  IssueTracker/Double/Shortest.lean --- the fewest decimal digits that read back.

  The reals that round to a double form an interval around it, ends included
  exactly when the mantissa is even.  For one digit, two digits and so on,
  `shortest` tests the decimal numbers of that many digits next to the double:
  the first that lies in the interval is taken, and of two the nearer, from a tie
  the even one.  Seventeen digits always suffice.

  `Layout` holds the decisions of a text format; `write` puts digits and layout
  together.
-/
import IssueTracker.Double.Basic
import IssueTracker.Text.Decimal

set_option autoImplicit false

namespace IssueTracker

/-- The decimal number `significand · 10 ^ exponent`. -/
structure Decimal where
  significand : Nat
  exponent : Int
  deriving DecidableEq, Repr, Inhabited

/-- How a text format lays out the digits of a number. -/
structure Layout where
  /-- The scientific exponents written without an exponent part: from the first
  to below the second; `none` for all of them. -/
  positional : Option (Int × Int)
  /-- Is a whole number written with `.0`? -/
  keepsPoint : Bool
  deriving Repr

namespace Double

/-- The absolute value as a ratio of natural numbers. -/
def ratio (x : Double) : Nat × Nat :=
  match x.exponent with
  | .ofNat k => (x.mantissa * Nat.pow 2 k, 1)
  | .negSucc k => (x.mantissa, Nat.pow 2 (k + 1))

/-- Compares `n / d` with `c · 10 ^ k`, both multiplied by the denominators. -/
def onGrid (n d c : Nat) : Int → Nat × Nat
  | .ofNat k => (n, c * Nat.pow 10 k * d)
  | .negSucc k => (n * Nat.pow 10 (k + 1), c * d)

/-- Does the decimal number `c · 10 ^ k` round to the double? -/
def readsBack (x : Double) (c : Nat) (k : Int) : Bool :=
  let (n, d) := x.ratio
  let unit := if x.mantissa = Nat.pow 2 52 ∧ leastExponent < x.exponent then 1 else 2
  -- the interval, in quarters of a unit in the last place
  let m := 4 * x.mantissa
  let low := onGrid (n * (m - unit)) (d * m) c k
  let high := onGrid (n * (m + 2)) (d * m) c k
  if x.mantissa % 2 = 0 then low.1 ≤ low.2 && high.2 ≤ high.1
  else low.1 < low.2 && high.2 < high.1

/-- How many digits `n / d` has before the decimal point; for a fraction below one,
minus the zeros behind the point. -/
def magnitude (n d : Nat) : Int :=
  if d ≤ n then ((Text.digits (n / d)).length : Int)
  else
    -- the digits of the reciprocal count the zeros
    let q := d / n
    let len := (Text.digits q).length
    if q = Nat.pow 10 (len - 1) ∧ n * q = d then 2 - (len : Int) else 1 - (len : Int)

/-- The decimal number with `count` digits next to the double that reads back, if
there is one. -/
def hit? (x : Double) (count : Nat) : Option Decimal :=
  let (n, d) := x.ratio
  let k : Int := magnitude n d - (count : Int)
  let (num, den) := onGrid n d 1 k
  let near := roundDiv num den
  let below := num / den
  let other := if near = below then below + 1 else below
  if x.readsBack near k then some ⟨near, k⟩
  else if x.readsBack other k then some ⟨other, k⟩
  else none

/-- The hit with the fewest digits, from `count` digits on. -/
def firstHit (x : Double) : Nat → Nat → Decimal
  | 0, count => (x.hit? count).getD ⟨0, 0⟩
  | fuel + 1, count => (x.hit? count).getD (firstHit x fuel (count + 1))

/-- The decimal number of fewest digits that reads back as the double. -/
def shortest (x : Double) : Decimal :=
  if x.isZero then ⟨0, 0⟩ else firstHit x 16 1

end Double

namespace Decimal

/-- The same number without trailing zeros in the significand. -/
def stripZeros : Nat → Decimal → Decimal
  | 0, x => x
  | fuel + 1, x =>
      if x.significand ≠ 0 ∧ x.significand % 10 = 0 then
        stripZeros fuel ⟨x.significand / 10, x.exponent + 1⟩
      else x

/-- Digits with a decimal point behind the first `whole` of them, filled up with
zeros on either side. -/
def placePoint (ds : List Char) (whole : Int) (keepsPoint : Bool) : List Char :=
  match whole with
  | .ofNat 0 => '0' :: '.' :: ds
  | .ofNat w =>
      if w < ds.length then ds.take w ++ '.' :: ds.drop w
      else
        ds ++ List.replicate (w - ds.length) '0' ++ (if keepsPoint then ['.', '0'] else [])
  | .negSucc z => '0' :: '.' :: List.replicate (z + 1) '0' ++ ds

/-- One digit, the point and the others, and the exponent with its sign. -/
def scientific (ds : List Char) (e : Int) : List Char :=
  let head := match ds with
    | [] => []
    | [d] => [d]
    | d :: rest => d :: '.' :: rest
  let sign := if e < 0 then '-' else '+'
  head ++ 'e' :: sign :: Text.digits e.natAbs

/-- The text of the number in a layout. -/
def write (lay : Layout) (x : Decimal) : List Char :=
  let x := stripZeros 400 x
  if x.significand = 0 then '0' :: (if lay.keepsPoint then ['.', '0'] else [])
  else
    let ds := Text.digits x.significand
    let e : Int := x.exponent + (ds.length : Int) - 1
    let inRange := match lay.positional with
      | none => true
      | some (least, most) => decide (least ≤ e ∧ e < most)
    if inRange then placePoint ds (e + 1) lay.keepsPoint else scientific ds e

end Decimal

/-- The text of a double: the sign, then its shortest digits in the layout. -/
def Double.write (lay : Layout) (x : Double) : List Char :=
  (if x.negative then ['-'] else []) ++ x.shortest.write lay

end IssueTracker
