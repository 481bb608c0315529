/-
  IssueTracker/Double/Basic.lean --- double precision numbers as exact values.

  A `Double` is a sign and a natural number of units of a power of two.  The
  operations compute in whole numbers and round once at the end, to the nearest
  double and from a tie to the even one.  There is no infinity: an operation
  whose result would be one has no result.
-/
set_option autoImplicit false

namespace IssueTracker

/-- A finite double precision number, `± mantissa · 2 ^ exponent`.  Numbers built by
`ofRatio?` have a mantissa below `2 ^ 53`, an exponent from -1074 to 971, and a
mantissa below `2 ^ 52` only at the exponent -1074. -/
structure Double where
  negative : Bool
  mantissa : Nat
  exponent : Int
  deriving DecidableEq, Repr, Inhabited

namespace Double

/-- The least exponent. -/
def leastExponent : Int := -1074

/-- The greatest exponent. -/
def greatestExponent : Int := 971

/-- The natural number nearest to `n / d`, the even one of two. -/
def roundDiv (n d : Nat) : Nat :=
  let q := n / d
  let r := n % d
  if 2 * r < d then q
  else if d < 2 * r then q + 1
  else if q % 2 = 0 then q
  else q + 1

/-- Numerator and denominator of `n / d / 2 ^ e`. -/
def scaled (n d : Nat) : Int → Nat × Nat
  | .ofNat k => (n, d * Nat.pow 2 k)
  | .negSucc k => (n * Nat.pow 2 (k + 1), d)

/-- The double of the given sign nearest to `n / d`; `none` if that is past the
greatest double. -/
def ofRatio? (negative : Bool) (n d : Nat) : Option Double :=
  if n = 0 then some ⟨negative, 0, leastExponent⟩
  else
    let guess : Int := (n.log2 : Int) - (d.log2 : Int) - 53
    let trial := scaled n d guess
    let fitting := if Nat.pow 2 53 ≤ trial.1 / trial.2 then guess + 1 else guess
    let e := max fitting leastExponent
    let unit := scaled n d e
    let m := roundDiv unit.1 unit.2
    let (m, e) := if m = Nat.pow 2 53 then (Nat.pow 2 52, e + 1) else (m, e)
    if greatestExponent < e then none else some ⟨negative, m, e⟩

/-- The double `± m / d · 2 ^ e`, rounded. -/
def ofScaled? (negative : Bool) (m d : Nat) : Int → Option Double
  | .ofNat k => ofRatio? negative (m * Nat.pow 2 k) d
  | .negSucc k => ofRatio? negative m (d * Nat.pow 2 (k + 1))

/-- The double nearest to a natural number. -/
def ofNat? (n : Nat) : Option Double := ofRatio? false n 1

/-- The product, rounded. -/
def mul? (x y : Double) : Option Double :=
  ofScaled? (x.negative != y.negative) (x.mantissa * y.mantissa) 1 (x.exponent + y.exponent)

/-- The quotient by a number that is not zero, rounded. -/
def div? (x y : Double) : Option Double :=
  ofScaled? (x.negative != y.negative) x.mantissa y.mantissa (x.exponent - y.exponent)

/-- The same number with the other sign. -/
def neg (x : Double) : Double := { x with negative := !x.negative }

/-- Is the number one of the two zeros? -/
def isZero (x : Double) : Bool := x.mantissa == 0

/-- The double nearest to `± significand · 10 ^ exponent`; `none` past the greatest
double. -/
def ofDecimal? (negative : Bool) (significand : Nat) (exponent : Int) : Option Double :=
  if significand = 0 then ofRatio? negative 0 1
  else
    match exponent with
    | .ofNat k => if 400 < k then none else ofRatio? negative (significand * Nat.pow 10 k) 1
    | .negSucc k =>
        if significand.log2 + 1200 < 3 * k then ofRatio? negative 0 1
        else ofRatio? negative significand (Nat.pow 10 (k + 1))

/-- The whole number nearest to the absolute value, the greater one of two. -/
def roundAwayFromZero (x : Double) : Nat :=
  match x.exponent with
  | .ofNat k => x.mantissa * Nat.pow 2 k
  | .negSucc k => (2 * x.mantissa + Nat.pow 2 (k + 1)) / Nat.pow 2 (k + 2)

end Double

end IssueTracker
