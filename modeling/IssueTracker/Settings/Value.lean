/-
  IssueTracker/Settings/Value.lean --- values of settings before they are read.

  Settings come from JSON files and from environment variables.  Both give values of one
  type.  The text of a variable is a truth value, a whole number or a real number if it
  reads as one, and else a text.
-/
import IssueTracker.Json.Text

set_option autoImplicit false

namespace IssueTracker

namespace Settings

/-- A real number as it may be written in a variable. -/
inductive Real where
  | finite (x : Double)
  | infinite (negative : Bool)
  | notANumber
  deriving DecidableEq, Repr, Inhabited

/-- A value of a setting. -/
inductive Value where
  | null
  | bool (b : Bool)
  | int (n : Int)
  | real (x : Real)
  | text (s : String)
  | list (items : List Value)
  | table (members : List (String × Value))
  deriving Inhabited

/-! ## Texts in lower case -/

/-- The character in lower case.  Of the characters outside ASCII only the Kelvin sign has a lower
case inside it; names of settings are ASCII, so the others stay. -/
def lowerChar (c : Char) : Char := if c = '\u212A' then 'k' else c.toLower

/-- The text in lower case. -/
def lower (s : String) : String := String.ofList (s.toList.map lowerChar)

/-! ## JSON files -/

/-- The double nearest to a whole number; an infinity past the greatest one. -/
def realOfInt (n : Int) : Real :=
  match Double.ofRatio? (n < 0) n.natAbs 1 with
  | some x => .finite x
  | none => .infinite (n < 0)

mutual

/-- The value of a JSON value.  Whole numbers past the signed ones of 64 bits are reals. -/
def Value.ofJson : Json → Value
  | .null => .null
  | .bool b => .bool b
  | .int n =>
      if n ≤ Text.maxSigned64 && -(Text.maxSigned64 : Int) - 1 ≤ n then .int n
      else .real (realOfInt n)
  | .real x => .real (.finite x)
  | .text s => .text s
  | .list js => .list (valuesOfJson js)
  | .object ms => .table (membersOfJson ms)

/-- The values of JSON values. -/
def valuesOfJson : List Json → List Value
  | [] => []
  | j :: js => Value.ofJson j :: valuesOfJson js

/-- The members of a JSON object. -/
def membersOfJson : List (String × Json) → List (String × Value)
  | [] => []
  | (k, j) :: ms => (k, Value.ofJson j) :: membersOfJson ms

end

/-! ## Variables -/

/-- The digits at the front, and what follows them. -/
def takeDigits (cs : List Char) : List Char × List Char :=
  (cs.takeWhile Text.isDigit, cs.dropWhile Text.isDigit)

/-- The digits behind a decimal point, if there is one. -/
def takeFraction : List Char → List Char × List Char
  | '.' :: cs => takeDigits cs
  | cs => ([], cs)

/-- Reads what follows the digits of a number: nothing, or an exponent. -/
def readExponent? : List Char → Option Int
  | [] => some 0
  | e :: cs =>
      if e = 'e' ∨ e = 'E' then
        match cs with
        | '-' :: ds => (Text.digitsValue? ds).map fun n => -(n : Int)
        | '+' :: ds => (Text.digitsValue? ds).map fun n => (n : Int)
        | ds => (Text.digitsValue? ds).map fun n => (n : Int)
      else none

/-- Reads a number without sign. -/
def readMagnitude? (negative : Bool) (cs : List Char) : Option Real :=
  let (whole, rest) := takeDigits cs
  let (fraction, rest) := takeFraction rest
  match Text.digitsValue? (whole ++ fraction), readExponent? rest with
  | some significand, some exponent =>
      match Double.ofDecimal? negative significand (exponent - fraction.length) with
      | some x => some (.finite x)
      | none => some (.infinite negative)
  | _, _ => none

/-- Reads a real number: digits with a point and an exponent, or a name of infinity or of what is
no number, in any case and after one sign. -/
def readReal? (cs : List Char) : Option Real :=
  let (negative, rest) := match cs with
    | '-' :: r => (true, r)
    | '+' :: r => (false, r)
    | r => (false, r)
  let name := String.ofList (rest.map Char.toLower)
  if name = "inf" ∨ name = "infinity" then some (.infinite negative)
  else if name = "nan" then some .notANumber
  else readMagnitude? negative rest

/-- The value of a variable. -/
def Value.ofVariable (s : String) : Value :=
  if lower s = "true" then .bool true
  else if lower s = "false" then .bool false
  else
    match Text.signed? s.toList with
    | some n => .int n
    | none =>
        match readReal? s.toList with
        | some x => .real x
        | none => .text s

end Settings

end IssueTracker
