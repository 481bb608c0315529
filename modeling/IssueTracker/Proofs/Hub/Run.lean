/-
  IssueTracker/Proofs/Hub/Run.lean --- calls on the hub as values, and runs of them.

  An `Op` is one call on the hub, `run` does a list of them.  `events` are the events that a
  run sends: they depend on the broadcasts alone.  `Records.run` says what every run keeps,
  whoever subscribes, leaves and receives in between.
-/
import IssueTracker.Proofs.Hub.Subscription

set_option autoImplicit false

namespace IssueTracker

namespace Hub

variable {config : Config} {sent : List Event} {h : Hub}

/-- A call on the hub. -/
inductive Op where
  | subscribe (filter : Topic.Filter)
  | unsubscribe (id : Nat)
  /-- The handle of a subscriber goes away. -/
  | drop (id : Nat)
  | broadcast (topic data : String)
  | receive (id : Nat)
  deriving DecidableEq, Repr, Inhabited

/-- The event that a call sends after `n` events were sent. -/
def Op.event? (n : Nat) : Op → Option Event
  | broadcast topic data => some ⟨n + 1, topic, data⟩
  | _ => none

/-- The hub after a call. -/
def step (h : Hub) : Op → Hub
  | .subscribe filter => (h.subscribe filter).2
  | .unsubscribe id => h.unsubscribe id
  | .drop id => h.drop id
  | .broadcast topic data => (h.broadcast topic data).2
  | .receive id => (h.receive id).2

/-- The hub after calls. -/
def run (h : Hub) : List Op → Hub
  | [] => h
  | op :: ops => (h.step op).run ops

/-- The events that calls send after `n` events were sent. -/
def events (n : Nat) : List Op → List Event
  | [] => []
  | op :: ops =>
      match op.event? n with
      | some e => e :: events (n + 1) ops
      | none => events n ops

theorem run_append (h : Hub) (first second : List Op) :
    h.run (first ++ second) = (h.run first).run second := by
  induction first generalizing h with
  | nil => rfl
  | cons op first ih => exact ih _

theorem events_append (n : Nat) (first second : List Op) :
    events n (first ++ second) =
      events n first ++ events (n + (events n first).length) second := by
  induction first generalizing n with
  | nil => rfl
  | cons op first ih =>
      simp only [List.cons_append, events]
      cases op.event? n with
      | none => exact ih n
      | some e =>
          have hcount : n + 1 + (events (n + 1) first).length =
              n + ((events (n + 1) first).length + 1) := by omega
          simp only [ih, List.length_cons, List.cons_append, hcount]

/-- A call that sends nothing keeps the records as they are. -/
theorem Records.step_of_none {op : Op} (hrec : Records config sent h)
    (hop : op.event? h.sequence = none) : Records config sent (h.step op) := by
  cases op with
  | broadcast topic data => simp [Op.event?] at hop
  | subscribe filter => exact hrec.subscribe filter
  | unsubscribe id => exact hrec.unsubscribe id
  | drop id => exact hrec.drop id
  | receive id => exact hrec.receive id

/-- A call that sends an event adds it to the records. -/
theorem Records.step_of_some {op : Op} {e : Event} (hrec : Records config sent h)
    (hop : op.event? h.sequence = some e) : Records config (sent ++ [e]) (h.step op) := by
  cases op with
  | broadcast topic data =>
      simp only [Op.event?, Option.some.injEq] at hop
      subst hop
      exact hrec.broadcast topic data
  | _ => simp [Op.event?] at hop

/-- A run numbers on from what was sent before, and retains the latest of all events. -/
theorem Records.run (hrec : Records config sent h) (ops : List Op) :
    Records config (sent ++ events h.sequence ops) (h.run ops) := by
  induction ops generalizing h sent with
  | nil => simpa [events, Hub.run] using hrec
  | cons op ops ih =>
      cases hop : op.event? h.sequence with
      | none =>
          have hstep := hrec.step_of_none hop
          have hnext : (h.step op).sequence = h.sequence :=
            hstep.sequence_eq.trans hrec.sequence_eq.symm
          have hrest := ih hstep
          rw [hnext] at hrest
          simpa only [events, hop, Hub.run] using hrest
      | some e =>
          have hstep := hrec.step_of_some hop
          have hnext : (h.step op).sequence = h.sequence + 1 := by
            rw [hstep.sequence_eq, hrec.sequence_eq, List.length_append, List.length_singleton]
          have hrest := ih hstep
          rw [hnext, List.append_assoc, List.singleton_append] at hrest
          simpa only [events, hop, Hub.run] using hrest

/-- What a run from the beginning keeps. -/
theorem Records.of_run (config : Config) (ops : List Op) :
    Records config (events 0 ops) ((Hub.ofConfig config).run ops) :=
  Records.run (Records.ofConfig config) ops

end Hub

end IssueTracker
