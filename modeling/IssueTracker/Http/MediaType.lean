/-
  IssueTracker/Http/MediaType.lean --- is a body JSON?

  A media type is a type and a subtype with a slash between them, and parameters behind
  semicolons.  JSON is the type `application` with the subtype `json`, or with any subtype
  that ends in `+json`; the part of a subtype behind its last plus sign is no part of
  its name.  Parameters say nothing here, but have to be well formed.
-/
import IssueTracker.Text.Split

set_option autoImplicit false

namespace IssueTracker

namespace Http

namespace MediaType

/-- May the character stand in a token? -/
def isTokenChar (c : Char) : Bool :=
  c.isAlphanum || c = '!' || c = '#' || c = '$' || c = '%' || c = '&' || c = '\x27' || c = '*' ||
    c = '+' || c = '-' || c = '.' || c = '^' || c = '_' || c = '\x60' || c = '|' || c = '~'

/-- May the character stand between quotes? -/
def isQuotedChar (c : Char) : Bool := 0x20 ≤ c.toNat && c.toNat ≠ 0x7F

/-- The token at the front, and what follows it. -/
def takeToken (cs : List Char) : List Char × List Char := cs.span isTokenChar

/-- What follows the closing quote.  The first character behind the opening quote is taken as it
is, a quote too. -/
def skipQuoted? : List Char → Option (List Char)
  | [] => none
  | c :: cs =>
      if isQuotedChar c then
        match (cs.span fun d => isQuotedChar d && d != '"').2 with
        | '"' :: rest => some rest
        | _ => none
      else none

/-- What follows the value of a parameter and its semicolon; `none` if the value is not well
formed.  Nothing follows the last value. -/
def skipValue? : List Char → Option (List Char)
  | '"' :: cs => do
      let rest ← skipQuoted? cs
      match rest.dropWhile (· = ' ') with
      | [] => some []
      | ';' :: rest => some rest
      | _ => none
  | cs =>
      match takeToken cs with
      | (_, []) => some []
      | (_ :: _, ';' :: rest) => some rest
      | _ => none

/-- Are the parameters well formed?  Each takes a character at least, so the fuel lasts if
there is as much as there are characters. -/
def areParameters : Nat → List Char → Bool
  | 0, cs => cs.isEmpty
  | _ + 1, [] => true
  | fuel + 1, ' ' :: cs => areParameters fuel cs
  | fuel + 1, cs =>
      match takeToken cs with
      | (_ :: _, '=' :: value) =>
          match skipValue? value with
          | some rest => areParameters fuel rest
          | none => false
      | _ => false

/-- The subtype before its last plus sign, and what stands behind it.  A plus sign in front
is part of the name. -/
def cutSuffix (subtype : List Char) : List Char × Option (List Char) :=
  match subtype with
  | [] => ([], none)
  | c :: cs =>
      match Text.cut '+' cs.reverse with
      | (_, none) => (c :: cs, none)
      | (suffix, some before) => (c :: before.reverse, some suffix.reverse)

/-- The characters in lower case. -/
def lower (cs : List Char) : List Char := cs.map Char.toLower

/-- The name of JSON. -/
def jsonName : List Char := "json".toList

/-- Do the type and the subtype mean JSON? -/
def namesJson (type subtype : List Char) : Bool :=
  let (name, suffix) := cutSuffix (lower subtype)
  lower type = "application".toList && (name = jsonName || suffix = some jsonName)

/-- Does a media type mean JSON? -/
def isJson (s : String) : Bool :=
  match takeToken s.toList with
  | (type, '/' :: rest) =>
      match takeToken rest with
      | (subtype, []) => namesJson type subtype
      | (subtype, ';' :: parameters) =>
          namesJson type subtype && areParameters parameters.length parameters
      | _ => false
  | _ => false

end MediaType

end Http

end IssueTracker
