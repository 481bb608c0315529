/-
  IssueTracker/Json/Parse.lean --- from text to tree.

  `value` reads one value, `items` and `members` what stands between brackets.
  Each reads at least one character before it goes on to another, except that a
  list and its first item start at the same one, so twice the length of the text
  is fuel enough; `parse` supplies it.  Where a text breaks off, nothing is left
  over, and every list and object around the break ends `broken`.
-/
import IssueTracker.Json.Numeral

set_option autoImplicit false

namespace IssueTracker.Json

mutual

/-- The value at the front of a text, and what follows it. -/
def value : Nat → List Char → Doc × List Char
  | 0, _ => (.broken, [])
  | fuel + 1, cs =>
      match skipSpace cs with
      | 'n' :: 'u' :: 'l' :: 'l' :: rest => (.null, rest)
      | 't' :: 'r' :: 'u' :: 'e' :: rest => (.bool true, rest)
      | 'f' :: 'a' :: 'l' :: 's' :: 'e' :: rest => (.bool false, rest)
      | '"' :: rest =>
          match takeString rest with
          | some (es, rest) => (.text (spelled es), rest)
          | none => (.broken, [])
      | '[' :: rest =>
          match skipSpace rest with
          | ']' :: rest => (.list [] .closed, rest)
          | rest =>
              let (ds, tail, rest) := items fuel rest
              (.list ds tail, rest)
      | '{' :: rest =>
          match skipSpace rest with
          | '}' :: rest => (.object [] .closed, rest)
          | rest =>
              let (ms, tail, rest) := members fuel rest
              (.object ms tail, rest)
      | rest =>
          match takeNumeral rest with
          | some (n, rest) => (.number n, rest)
          | none => (.broken, [])

/-- The items of a list from one of them on, how the list ends, and what follows. -/
def items : Nat → List Char → List Doc × Tail × List Char
  | 0, _ => ([], .broken, [])
  | fuel + 1, cs =>
      let (d, rest) := value fuel cs
      match skipSpace rest with
      | ',' :: rest =>
          let (ds, tail, rest) := items fuel rest
          (d :: ds, tail, rest)
      | ']' :: rest => ([d], .closed, rest)
      | _ => ([d], .broken, [])

/-- The members of an object from one of them on, how the object ends, and what
follows. -/
def members : Nat → List Char → List (Option String × Doc) × Tail × List Char
  | 0, _ => ([], .broken, [])
  | fuel + 1, cs =>
      match skipSpace cs with
      | '"' :: rest =>
          match takeString rest with
          | none => ([], .broken, [])
          | some (es, rest) =>
              match skipSpace rest with
              | ':' :: rest =>
                  let (d, rest) := value fuel rest
                  match skipSpace rest with
                  | ',' :: rest =>
                      let (ms, tail, rest) := members fuel rest
                      ((spelled es, d) :: ms, tail, rest)
                  | '}' :: rest => ([(spelled es, d)], .closed, rest)
                  | _ => ([(spelled es, d)], .broken, [])
              | _ => ([(spelled es, .broken)], .broken, [])
      | rest => ([], .stray (value fuel rest).1.refusal, [])

end

/-- The value at the front of a text, and what follows it. -/
def parseFront (s : String) : Doc × List Char :=
  let cs := s.toList
  value (2 * cs.length + 2) cs

/-- The tree of a text that is one value. -/
def parse (s : String) : Doc := (parseFront s).1

/-- Is nothing but blanks left behind the value? -/
def endsAfterValue (s : String) : Bool := (skipSpace (parseFront s).2).isEmpty

end IssueTracker.Json
