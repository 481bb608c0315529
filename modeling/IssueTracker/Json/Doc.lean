/-
  IssueTracker/Json/Doc.lean --- JSON text as a tree that may break off.

  Requests are read in one pass straight into their type, so of two things wrong
  with a text the first decides: a number where a title is wanted, or a missing
  comma further on.  `Doc.parse` therefore never fails.  It turns any text into a
  tree which stops where the text stops being JSON; a reader of the tree
  (`IssueTracker.Json.Read`) walks it in text order and meets either a value of the
  wrong kind or the break first.

  Two things are well formed and still cannot always be read: a string with an
  escaped surrogate that has no partner is no text, and a number may lie past the
  greatest double.  Both only matter where the value is wanted, so the tree keeps
  them as they are.
-/
import IssueTracker.Text.Decimal

set_option autoImplicit false

namespace IssueTracker.Json

/-- Why a text cannot be read as a type. -/
inductive Fault where
  /-- The text is not JSON, or a value is not written in a way its type admits. -/
  | malformed
  /-- The text is JSON so far, but of the wrong kind or out of range. -/
  | mismatch
  deriving DecidableEq, Repr, Inhabited

/-- A number as it is written. -/
structure Numeral where
  negative : Bool
  /-- The digits before the point. -/
  whole : List Nat
  /-- The digits behind the point; `none` without a point. -/
  fraction : Option (List Nat)
  /-- The power of ten; `none` without an exponent part. -/
  exponent : Option Int
  deriving DecidableEq, Repr, Inhabited

/-- How a list or an object ends. -/
inductive Tail where
  /-- With its bracket. -/
  | closed
  /-- Where the text stops being JSON. -/
  | broken
  /-- With something other than a string in the place of a key. -/
  | stray (fault : Fault)
  deriving DecidableEq, Repr, Inhabited

/-- A JSON text as far as it goes. -/
inductive Doc where
  | null
  | bool (b : Bool)
  | number (n : Numeral)
  /-- A string; `none` if a surrogate in it has no partner. -/
  | text (s : Option String)
  | list (items : List Doc) (tail : Tail)
  | object (members : List (Option String × Doc)) (tail : Tail)
  /-- The text stops being JSON here. -/
  | broken
  deriving Inhabited

/-! ## Words and numbers -/

/-- The blanks between the words of a JSON text. -/
def isSpace (c : Char) : Bool := c == ' ' || c == '\n' || c == '\t' || c == '\r'

/-- The text from the first character that is no blank. -/
def skipSpace (cs : List Char) : List Char := cs.dropWhile isSpace

/-- The digits at the front of a text, and what follows them. -/
def takeDigits : List Char → List Nat × List Char
  | [] => ([], [])
  | c :: cs =>
      match Text.digitValue? c with
      | some d =>
          let (ds, rest) := takeDigits cs
          (d :: ds, rest)
      | none => ([], c :: cs)

/-- The value of a run of digits. -/
def valueOfDigits (ds : List Nat) : Nat := ds.foldl (fun n d => n * 10 + d) 0

/-- The digits before the point: a zero alone, or a run that does not start with one. -/
def takeWhole (cs : List Char) : Option (List Nat × List Char) :=
  match takeDigits cs with
  | ([], _) => none
  | (0 :: _ :: _, _) => none
  | (ds, rest) => some (ds, rest)

/-- The point and the digits behind it, if there is a point. -/
def takeFraction : List Char → Option (Option (List Nat) × List Char)
  | '.' :: cs =>
      match takeDigits cs with
      | ([], _) => none
      | (ds, rest) => some (some ds, rest)
  | cs => some (none, cs)

/-- The digits of an exponent, given its sign. -/
def takeExponentDigits (negative : Bool) (cs : List Char) : Option (Option Int × List Char) :=
  match takeDigits cs with
  | ([], _) => none
  | (ds, rest) =>
      let n : Int := valueOfDigits ds
      some (some (if negative then -n else n), rest)

/-- The exponent part, if there is one. -/
def takeExponent : List Char → Option (Option Int × List Char)
  | c :: cs =>
      if c = 'e' ∨ c = 'E' then
        match cs with
        | '+' :: r => takeExponentDigits false r
        | '-' :: r => takeExponentDigits true r
        | r => takeExponentDigits false r
      else some (none, c :: cs)
  | [] => some (none, [])

/-- The number at the front of a text, and what follows it. -/
def takeNumeral (cs : List Char) : Option (Numeral × List Char) := do
  let (negative, cs) := match cs with
    | '-' :: r => (true, r)
    | r => (false, r)
  let (whole, cs) ← takeWhole cs
  let (fraction, cs) ← takeFraction cs
  let (exponent, cs) ← takeExponent cs
  return (⟨negative, whole, fraction, exponent⟩, cs)

/-! ## Strings -/

/-- One element of a written string: a character, or half of a surrogate pair. -/
inductive Element where
  | char (c : Char)
  | unit (n : Nat)
  deriving DecidableEq, Repr

/-- The value of a hexadecimal digit, of either case. -/
def hexValue? (c : Char) : Option Nat :=
  let n := c.toNat
  if 48 ≤ n ∧ n ≤ 57 then some (n - 48)
  else if 65 ≤ n ∧ n ≤ 70 then some (n - 55)
  else if 97 ≤ n ∧ n ≤ 102 then some (n - 87)
  else none

/-- The element that four hexadecimal digits name. -/
def elementOfUnit (n : Nat) : Element :=
  if 0xD800 ≤ n ∧ n ≤ 0xDFFF then .unit n else .char (Char.ofNat n)

/-- The character of a short escape. -/
def shortEscape? (c : Char) : Option Char :=
  if c = '"' then some '"'
  else if c = '\\' then some '\\'
  else if c = '/' then some '/'
  else if c = 'b' then some '\x08'
  else if c = 'f' then some '\x0c'
  else if c = 'n' then some '\n'
  else if c = 'r' then some '\r'
  else if c = 't' then some '\t'
  else none

/-- The elements up to the closing quote, and what follows it. -/
def takeString : List Char → Option (List Element × List Char)
  | [] => none
  | '"' :: rest => some ([], rest)
  | '\\' :: 'u' :: a :: b :: c :: d :: rest => do
      let n := (← hexValue? a) * 4096 + (← hexValue? b) * 256 + (← hexValue? c) * 16 +
        (← hexValue? d)
      let (es, rest) ← takeString rest
      return (elementOfUnit n :: es, rest)
  | '\\' :: c :: rest => do
      let e ← shortEscape? c
      let (es, rest) ← takeString rest
      return (.char e :: es, rest)
  | c :: rest =>
      if c.toNat < 0x20 ∨ c = '\\' then none
      else do
        let (es, rest) ← takeString rest
        return (.char c :: es, rest)

/-- The characters of the elements: a high surrogate and a low one behind it are one
character, any other surrogate is none. -/
def spell : List Element → Option (List Char)
  | [] => some []
  | .char c :: es => (spell es).map (c :: ·)
  | .unit h :: .unit l :: es =>
      if h < 0xDC00 ∧ 0xDC00 ≤ l then
        (spell es).map (Char.ofNat (0x10000 + (h - 0xD800) * 0x400 + (l - 0xDC00)) :: ·)
      else none
  | .unit _ :: _ => none

/-- The text that the elements spell. -/
def spelled (es : List Element) : Option String := (spell es).map String.ofList

end IssueTracker.Json
