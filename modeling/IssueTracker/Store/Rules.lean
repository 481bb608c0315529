/-
  IssueTracker/Store/Rules.lean --- what the store accepts, and how it refuses.

  Titles and comments are kept trimmed and must not be blank, priorities end at
  `greatestPriority`, labels are short texts without blanks.  `Store.Fault` lists every
  reason for which the store refuses an operation, and `Fault.failure` words them.
-/
import IssueTracker.Bead.Request
import IssueTracker.Failure
import IssueTracker.Text.Blank

set_option autoImplicit false

namespace IssueTracker

namespace Store

/-! ## Faults -/

/-- Why the store refuses an operation. -/
inductive Fault where
  | beadNotFound (id : String)
  | blankTitle
  | priorityOutOfRange
  | badLabel
  | closedStateChange
  | alreadyClosed (id : String)
  | notClosed (id : String)
  | labelPresent (id label : String)
  | labelAbsent (id label : String)
  | selfDependency
  | dependencyPresent (dependent prerequisite : String)
  | dependencyCycle (dependent prerequisite : String)
  | dependencyAbsent (dependent prerequisite : String)
  | blankComment
  deriving DecidableEq, Repr, Inhabited

/-- A label has at most so many bytes. -/
def greatestLabelSize : Nat := 64

/-- The failure with which a fault is answered. -/
def Fault.failure : Fault → Failure
  | beadNotFound id => .notFound ("Bead " ++ id ++ " not found")
  | blankTitle => .invalidInput "title must not be empty"
  | priorityOutOfRange =>
      .invalidInput ("priority must be between 0 and " ++ Text.decimal greatestPriority)
  | badLabel =>
      .invalidInput
        ("label must be 1-" ++ Text.decimal greatestLabelSize ++ " characters without whitespace")
  | closedStateChange =>
      .invalidInput "use the close and reopen endpoints to change closed state"
  | alreadyClosed id => .conflict ("Bead " ++ id ++ " is already closed")
  | notClosed id => .conflict ("Bead " ++ id ++ " is not closed")
  | labelPresent id label => .conflict ("Bead " ++ id ++ " already has label " ++ label)
  | labelAbsent id label => .notFound ("Bead " ++ id ++ " has no label " ++ label)
  | selfDependency => .invalidInput "a bead cannot depend on itself"
  | dependencyPresent d p => .conflict (d ++ " already depends on " ++ p)
  | dependencyCycle d p => .invalidInput (d ++ " -> " ++ p ++ " would create a dependency cycle")
  | dependencyAbsent d p => .notFound (d ++ " does not depend on " ++ p)
  | blankComment => .invalidInput "comment must not be empty"

/-! ## Checks -/

/-- The title as it is kept. -/
def checkTitle (title : String) : Except Fault String :=
  if Text.trimmed title = "" then .error .blankTitle else .ok (Text.trimmed title)

/-- The priority, if it is in range. -/
def checkPriority (priority : Nat) : Except Fault Nat :=
  if priority ≤ greatestPriority then .ok priority else .error .priorityOutOfRange

/-- May the text stand as a label?  Its size counts bytes of UTF-8. -/
def isLabel (kept : String) : Bool :=
  kept != "" && kept.utf8ByteSize ≤ greatestLabelSize && !kept.toList.any Text.isBlank

/-- The label as it is kept. -/
def checkLabel (label : String) : Except Fault String :=
  if isLabel (Text.trimmed label) then .ok (Text.trimmed label) else .error .badLabel

/-- The labels as they are kept, or the fault of the first one that is refused. -/
def checkLabels : List String → Except Fault (List String)
  | [] => .ok []
  | l :: ls =>
      match checkLabel l with
      | .error f => .error f
      | .ok kept =>
          match checkLabels ls with
          | .error f => .error f
          | .ok rest => .ok (kept :: rest)

/-- The text of a comment as it is kept. -/
def checkComment (text : String) : Except Fault String :=
  if Text.trimmed text = "" then .error .blankComment else .ok (Text.trimmed text)

theorem checkTitle_eq_ok {title kept : String} :
    checkTitle title = .ok kept ↔ kept = Text.trimmed title ∧ Text.trimmed title ≠ "" := by
  by_cases h : Text.trimmed title = "" <;> simp [checkTitle, h, eq_comm]

theorem checkPriority_eq_ok {priority kept : Nat} :
    checkPriority priority = .ok kept ↔ kept = priority ∧ priority ≤ greatestPriority := by
  by_cases h : priority ≤ greatestPriority <;> simp [checkPriority, h, eq_comm]

theorem checkLabel_eq_ok {label kept : String} :
    checkLabel label = .ok kept ↔
      kept = Text.trimmed label ∧ isLabel (Text.trimmed label) = true := by
  by_cases h : isLabel (Text.trimmed label) = true <;> simp [checkLabel, h, eq_comm]

theorem checkComment_eq_ok {text kept : String} :
    checkComment text = .ok kept ↔ kept = Text.trimmed text ∧ Text.trimmed text ≠ "" := by
  by_cases h : Text.trimmed text = "" <;> simp [checkComment, h, eq_comm]

end Store

end IssueTracker
