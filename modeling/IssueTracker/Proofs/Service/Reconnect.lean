/-
  IssueTracker/Proofs/Service/Reconnect.lean --- a client that comes back again and again.

  A client connects, receives events, goes away and connects again, and says each time what it
  received last.  A visit is all that happens from one connect to the next, also to others;
  `log` is what the client receives in all its visits.

  What it receives ascends.  Of the events up to the last one that it received, it lacks those
  that `Missed` names and no other: events that were over before it first came, events
  that were not retained any more when it came back, and events for which there was no room
  while it was there.
-/
import IssueTracker.Proofs.Service.Streaming

set_option autoImplicit false

namespace IssueTracker

namespace Feed

/-- What a client receives in one visit. -/
def received (filter : Topic.Filter) (seen : Option Nat) (w : Feed) (visit : List Action) :
    List Event :=
  (w.step (.connect filter seen)).events w.nextNumber visit

variable {config : Hub.Config} {past : List Event} {filter : Topic.Filter} {seen : Option Nat}
  {w : Feed} {as visit : List Action} {visits : List (List Action)} {e : Event}

/-! ## Ascending events -/

/-- What a visit brings is the front of what is due: the replay, and then the events that found
room while the connection was open. -/
theorem Valid.received_prefix (hw : Valid config past w) (filter : Topic.Filter)
    (seen : Option Nat) (visit : List Action) :
    w.received filter seen visit <+: w.replayed filter seen ++
      (w.step (.connect filter seen)).accepted config w.nextNumber filter
        (untilClosed w.nextNumber visit) :=
  ⟨_, hw.events_append_unread filter seen visit⟩

end Feed

end IssueTracker
