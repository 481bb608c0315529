/-
  IssueTracker/Http/Form.lean --- the fields of a query.

  Fields stand between ampersands, each a name and a value with an equals sign between them.
  In both a plus sign stands for a space and percent escapes for bytes; bytes that are no
  text become U+FFFD.
-/
import IssueTracker.Text.Percent
import IssueTracker.Text.Split
import IssueTracker.Text.Utf8

set_option autoImplicit false

namespace IssueTracker

namespace Http

/-- Names and values. -/
abbrev Form : Type := List (String × String)

namespace Form

/-- The text of a name or value. -/
def decode (cs : List Char) : String :=
  let spaced := cs.map fun c => if c = '+' then ' ' else c
  String.ofList (Text.Utf8.decode (Text.Percent.decode (Text.Utf8.encode spaced)))

/-- Reads a name and a value; no equals sign means an empty value. -/
def readField (cs : List Char) : String × String :=
  let (name, value) := Text.cut '=' cs
  (decode name, decode (value.getD []))

/-- Reads the fields of a query; empty ones are dropped. -/
def parse (query : List Char) : Form :=
  ((Text.split '&' query).filter fun cs => !cs.isEmpty).map readField

/-- The values of a name. -/
def values (form : Form) (name : String) : List String :=
  (form.filter (·.1 == name)).map (·.2)

/-- Reads the value of a name that may be missing; `none` if it does not read or stands there
twice. -/
def optional? {α : Type} (form : Form) (name : String) (read : String → Option α) :
    Option (Option α) :=
  match form.values name with
  | [] => some none
  | [value] => (read value).map some
  | _ => none

end Form

end Http

end IssueTracker
