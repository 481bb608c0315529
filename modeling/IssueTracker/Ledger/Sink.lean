/-
  IssueTracker/Ledger/Sink.lean --- the ledger as a sink.

  A ledger may be out of order: then every call fails, or appends never end while reads find
  nothing.
-/
import IssueTracker.Dispatch.Sink
import IssueTracker.Ledger.Basic

set_option autoImplicit false

namespace IssueTracker

/-- A ledger, and how it behaves. -/
structure LedgerSink where
  ledger : Ledger := .empty
  availability : Availability := .accepting
  deriving Inhabited

namespace LedgerSink

/-- The text of the failure of a ledger that is out of order. -/
def outOfOrder : String := "ledger unavailable"

/-- Offers an entry. -/
def offer (now : Instant) (e : Ledger.Entry) (s : LedgerSink) : Delivery × LedgerSink :=
  match s.availability with
  | .accepting =>
      match s.ledger.append now e with
      | .ok (_, ledger) => (.taken, { s with ledger })
      | .error _ => (.refused, s)
  | .failing => (.refused, s)
  | .stalled => (.stalled, s)

/-- The ledger at a reading of the clock. -/
def sink (now : Instant) : Sink Ledger.Entry LedgerSink := ⟨offer now⟩

/-- A page of records. -/
def query (after : Int) (filter : Topic.Filter) (limit : Nat) (s : LedgerSink) :
    Except String (List Ledger.Record) :=
  match s.availability with
  | .accepting => .ok (s.ledger.query after filter limit)
  | .failing => .error outOfOrder
  | .stalled => .ok []

/-- The number of the latest record. -/
def latest (s : LedgerSink) : Except String Nat :=
  match s.availability with
  | .accepting => .ok s.ledger.latest
  | .failing => .error outOfOrder
  | .stalled => .ok 0

end LedgerSink

end IssueTracker
