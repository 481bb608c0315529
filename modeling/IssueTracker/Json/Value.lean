/-
  IssueTracker/Json/Value.lean --- JSON values and their compact text.

  A value keeps whole numbers apart from doubles, and an object is the list of its
  members in the order in which they are written.  `render` writes a value
  without blanks.  In a string the quote, the backslash and the controls below
  the space are escaped, so a rendered value never holds a line break.

  `ofDoc?` reads any JSON text as a value.  There the members of an object are
  sorted by name, and of members with one name the last is kept.
-/
import IssueTracker.Double.Shortest
import IssueTracker.Json.Numeral

set_option autoImplicit false

namespace IssueTracker

/-- A JSON value. -/
inductive Json where
  | null
  | bool (b : Bool)
  | int (n : Int)
  | real (x : Double)
  | text (s : String)
  | list (items : List Json)
  | object (members : List (String × Json))
  deriving Inhabited

namespace Json

/-! ## Equality -/

mutual

/-- Are two values the same? -/
def same : Json → Json → Bool
  | .null, .null => true
  | .bool a, .bool b => a == b
  | .int m, .int n => m == n
  | .real x, .real y => x == y
  | .text s, .text t => s == t
  | .list js, .list ks => sameItems js ks
  | .object ms, .object ns => sameMembers ms ns
  | _, _ => false

/-- Are the items of two lists the same? -/
def sameItems : List Json → List Json → Bool
  | [], [] => true
  | j :: js, k :: ks => same j k && sameItems js ks
  | _, _ => false

/-- Are the members of two objects the same, and in the same order? -/
def sameMembers : List (String × Json) → List (String × Json) → Bool
  | [], [] => true
  | (a, j) :: ms, (b, k) :: ns => a == b && same j k && sameMembers ms ns
  | _, _ => false

end

mutual

theorem same_self : (j : Json) → same j j = true
  | .null => rfl
  | .bool a => beq_self_eq_true a
  | .int n => beq_self_eq_true n
  | .real x => beq_self_eq_true x
  | .text s => beq_self_eq_true s
  | .list js => sameItems_self js
  | .object ms => sameMembers_self ms

theorem sameItems_self : (js : List Json) → sameItems js js = true
  | [] => rfl
  | j :: js => by rw [sameItems, same_self j, sameItems_self js, Bool.and_self]

theorem sameMembers_self : (ms : List (String × Json)) → sameMembers ms ms = true
  | [] => rfl
  | (a, j) :: ms => by
      rw [sameMembers, beq_self_eq_true, same_self j, sameMembers_self ms, Bool.and_self,
        Bool.and_self]

end

mutual

theorem eq_of_same : (j k : Json) → same j k = true → j = k
  | .null, k, h => by cases k <;> first | rfl | cases h
  | .bool a, k, h => by cases k <;> first | exact congrArg bool (eq_of_beq h) | cases h
  | .int m, k, h => by cases k <;> first | exact congrArg int (eq_of_beq h) | cases h
  | .real x, k, h => by cases k <;> first | exact congrArg real (eq_of_beq h) | cases h
  | .text s, k, h => by cases k <;> first | exact congrArg text (eq_of_beq h) | cases h
  | .list js, k, h => by cases k <;> first | exact congrArg list (eq_of_sameItems js _ h) | cases h
  | .object ms, k, h => by
      cases k <;> first | exact congrArg object (eq_of_sameMembers ms _ h) | cases h

theorem eq_of_sameItems : (js ks : List Json) → sameItems js ks = true → js = ks
  | [], [], _ => rfl
  | [], _ :: _, h => by cases h
  | _ :: _, [], h => by cases h
  | j :: js, k :: ks, h => by
      rw [sameItems, Bool.and_eq_true] at h
      rw [eq_of_same j k h.1, eq_of_sameItems js ks h.2]

theorem eq_of_sameMembers :
    (ms ns : List (String × Json)) → sameMembers ms ns = true → ms = ns
  | [], [], _ => rfl
  | [], _ :: _, h => by cases h
  | _ :: _, [], h => by cases h
  | (a, j) :: ms, (b, k) :: ns, h => by
      rw [sameMembers, Bool.and_eq_true, Bool.and_eq_true] at h
      rw [eq_of_beq h.1.1, eq_of_same j k h.1.2, eq_of_sameMembers ms ns h.2]

end

instance : DecidableEq Json := fun j k =>
  decidable_of_iff (same j k = true) ⟨eq_of_same j k, fun h => h ▸ same_self j⟩

/-- A text, or null for none. -/
def textOrNull : Option String → Json
  | some s => .text s
  | none => .null

/-! ## Writing -/

/-- The hexadecimal digit of a value below sixteen, in lower case. -/
def hexLower (n : Nat) : Char := if n < 10 then Char.ofNat (48 + n) else Char.ofNat (87 + n)

/-- A character as it stands in a string. -/
def escape (c : Char) : List Char :=
  if c = '"' then ['\\', '"']
  else if c = '\\' then ['\\', '\\']
  else if c = '\n' then ['\\', 'n']
  else if c = '\r' then ['\\', 'r']
  else if c = '\t' then ['\\', 't']
  else if c = '\x08' then ['\\', 'b']
  else if c = '\x0c' then ['\\', 'f']
  else if c.toNat < 0x20 then
    ['\\', 'u', '0', '0', hexLower (c.toNat / 16), hexLower (c.toNat % 16)]
  else [c]

/-- A text between quotes. -/
def quote (s : String) : List Char := '"' :: s.toList.flatMap escape ++ ['"']

/-- Doubles are written positionally from `1e-5` to below `1e16`, and whole ones with
`.0`. -/
def layout : Layout := ⟨some (-5, 16), true⟩

mutual

/-- The characters of a value. -/
def chars : Json → List Char
  | .null => ['n', 'u', 'l', 'l']
  | .bool true => ['t', 'r', 'u', 'e']
  | .bool false => ['f', 'a', 'l', 's', 'e']
  | .int n => (Text.signedDecimal n).toList
  | .real x => x.write layout
  | .text s => quote s
  | .list [] => ['[', ']']
  | .list (j :: js) => '[' :: chars j ++ itemChars js ++ [']']
  | .object [] => ['{', '}']
  | .object ((k, j) :: ms) => '{' :: quote k ++ ':' :: chars j ++ memberChars ms ++ ['}']

/-- The characters of further items. -/
def itemChars : List Json → List Char
  | [] => []
  | j :: js => ',' :: chars j ++ itemChars js

/-- The characters of further members. -/
def memberChars : List (String × Json) → List Char
  | [] => []
  | (k, j) :: ms => ',' :: quote k ++ ':' :: chars j ++ memberChars ms

end

/-- The compact text of a value. -/
def render (j : Json) : String := String.ofList j.chars

/-! ## Reading -/

/-- The members with one more: in its place by name, and instead of one of that name. -/
def putMember (k : String) (j : Json) : List (String × Json) → List (String × Json)
  | [] => [(k, j)]
  | (k', j') :: ms =>
      if k = k' then (k, j) :: ms
      else if k < k' then (k, j) :: (k', j') :: ms
      else (k', j') :: putMember k j ms

/-- The value of a number. -/
def ofNumber : Number → Json
  | .int n => .int n
  | .real x => .real x

mutual

/-- The value of a tree of lists and objects at most `depth` deep; `none` if the tree
breaks off or holds something without a value. -/
def ofDocWithin? : Nat → Doc → Option Json
  | _, .null => some .null
  | _, .bool b => some (.bool b)
  | _, .number n => n.value?.map ofNumber
  | _, .text s => s.map .text
  | 0, .list _ _ => none
  | depth + 1, .list ds tail =>
      if tail = .closed then (itemsOfDocs? depth ds).map .list else none
  | 0, .object _ _ => none
  | depth + 1, .object ms tail =>
      if tail = .closed then (membersOfDocs? depth [] ms).map .object else none
  | _, .broken => none

/-- The values of the items. -/
def itemsOfDocs? : Nat → List Doc → Option (List Json)
  | _, [] => some []
  | depth, d :: ds => do
      let j ← ofDocWithin? depth d
      let js ← itemsOfDocs? depth ds
      return j :: js

/-- The values of the members, put to those before them. -/
def membersOfDocs? :
    Nat → List (String × Json) → List (Option String × Doc) → Option (List (String × Json))
  | _, done, [] => some done
  | depth, done, (k, d) :: ms => do
      let k ← k
      let j ← ofDocWithin? depth d
      membersOfDocs? depth (putMember k j done) ms

end

/-- Lists and objects may be nested this deep. -/
def greatestDepth : Nat := 127

/-- The value of a tree. -/
def ofDoc? (d : Doc) : Option Json := ofDocWithin? greatestDepth d

end Json

end IssueTracker
