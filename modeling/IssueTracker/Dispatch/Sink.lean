/-
  IssueTracker/Dispatch/Sink.lean --- places to which events are offered.

  A sink takes what it is offered, refuses it, or never answers.  It has a state that each
  offer may change.
-/
set_option autoImplicit false

namespace IssueTracker

/-- What becomes of an offer. -/
inductive Delivery where
  | taken
  | refused
  /-- No answer ever comes. -/
  | stalled
  deriving DecidableEq, Repr, Inhabited

/-- How a sink of the tracker behaves. -/
inductive Availability where
  | accepting
  | failing
  | stalled
  deriving DecidableEq, Repr, Inhabited

/-- A place for offers of type `ω`, with states of type `σ`. -/
structure Sink (ω σ : Type) where
  offer : ω → σ → Delivery × σ

end IssueTracker
