/-
  IssueTracker/Topic/Filter.lean --- lists of patterns.

  A filter passes the topics that match one of its patterns, and every topic if it has
  none.  It is written as the patterns with commas between them.
-/
import IssueTracker.Json.Read
import IssueTracker.Json.Value
import IssueTracker.Text.Blank
import IssueTracker.Topic.Basic

set_option autoImplicit false

namespace IssueTracker

namespace Topic

/-- Patterns of which one has to match. -/
structure Filter where
  patterns : List String
  deriving DecidableEq, Repr, Inhabited

namespace Filter

/-- The filter that passes everything. -/
def everything : Filter := ⟨[]⟩

/-- Reads patterns between commas; blanks around them and empty ones are dropped. -/
def parse (raw : String) : Filter :=
  ⟨((Text.split ',' raw.toList).map Text.trim).filterMap fun cs =>
    if cs.isEmpty then none else some (String.ofList cs)⟩

/-- Has the filter no patterns? -/
def isEmpty (f : Filter) : Bool := f.patterns.isEmpty

/-- Does the filter pass a topic? -/
def passes (f : Filter) (topic : String) : Bool :=
  f.patterns.isEmpty || f.patterns.any fun p => satisfies p topic

/-- The patterns as JSON. -/
def toJson (f : Filter) : Json := .list (f.patterns.map .text)

/-- Reads a list of patterns. -/
def read : Json.Reader Filter := fun d => (d.asList Json.Doc.asText).map Filter.mk

end Filter

end Topic

end IssueTracker
