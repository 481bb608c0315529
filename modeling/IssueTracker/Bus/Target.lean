/-
  IssueTracker/Bus/Target.lean --- the target of a request for an address.

  The target is the path and the query of an address, in the form in which they are sent:
  characters that must not stand there are written as percent signs with two digits, the
  segments `.` and `..` are resolved, and what follows a `#` is left out.
-/
import IssueTracker.Text.Percent
import IssueTracker.Text.Split
import IssueTracker.Text.Utf8

set_option autoImplicit false

namespace IssueTracker

namespace Bus

/-- The characters that are dropped wherever they stand in an address. -/
def isDropped (c : Char) : Bool := c = '\t' || c = '\n' || c = '\r'

/-- The characters that are dropped at the ends of an address. -/
def isMargin (c : Char) : Bool := c.toNat ≤ 0x20

/-- Is the character written in percent form in every part of a target? -/
def isEscaped (c : Char) : Bool :=
  c.toNat ≤ 0x20 || 0x7E < c.toNat || c = '"' || c = '#' || c = '<' || c = '>'

/-- Is the character written in percent form in a path? -/
def isEscapedInPath (c : Char) : Bool :=
  isEscaped c || c = '?' || c = '\x60' || c = '{' || c = '}'

/-- Is the character written in percent form in a query? -/
def isEscapedInQuery (c : Char) : Bool := isEscaped c || c = '\x27'

/-- The characters, those of a class in percent form. -/
def escapeIf (isIn : Char → Bool) (cs : List Char) : List Char :=
  cs.flatMap fun c =>
    if isIn c then (Text.Utf8.encodeChar c).flatMap Text.Percent.encodeByte else [c]

/-- The dots of a segment that consists of dots, which may be in percent form. -/
def dotCount? : List Char → Option Nat
  | [] => some 0
  | '.' :: cs => (dotCount? cs).map (· + 1)
  | '%' :: '2' :: 'e' :: cs => (dotCount? cs).map (· + 1)
  | '%' :: '2' :: 'E' :: cs => (dotCount? cs).map (· + 1)
  | _ => none

/-- Resolves dots; `done` are the segments so far, the latest first. -/
def resolve : List (List Char) → List (List Char) → List (List Char)
  | done, [] => done.reverse
  | done, w :: ws =>
      match dotCount? w with
      | some 1 => resolve (if ws.isEmpty then [] :: done else done) ws
      | some 2 => resolve (if ws.isEmpty then [] :: done.tail else done.tail) ws
      | _ => resolve (escapeIf isEscapedInPath w :: done) ws

/-- The path as it is sent. -/
def pathTarget (path : List Char) : List Char :=
  let slashed := path.map fun c => if c = '\\' then '/' else c
  '/' :: Text.joinWith '/' (resolve [] (Text.split '/' (slashed.drop 1)))

/-- Does the character end the name of the host? -/
def endsHost (c : Char) : Bool := c = '/' || c = '\\' || c = '?' || c = '#'

/-- What stands behind the scheme and the host of an address. -/
def afterHost (cs : List Char) : List Char :=
  ((cs.dropWhile (· != ':')).drop 3).dropWhile fun c => !endsHost c

/-- The target of a request for an address. -/
def target (address : String) : String :=
  let cs := (address.toList.reverse.dropWhile isMargin).reverse.filter fun c => !isDropped c
  let (visible, _) := Text.cut '#' (afterHost cs)
  let (path, query) := Text.cut '?' visible
  String.ofList (pathTarget path ++
    query.elim [] fun q => '?' :: escapeIf isEscapedInQuery q)

end Bus

end IssueTracker
