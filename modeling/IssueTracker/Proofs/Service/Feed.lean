/-
  IssueTracker/Proofs/Service/Feed.lean --- the hub with the clients that follow it.

  A `Feed` is the hub and the connections that are open.  An `Action` is whatever happens to it,
  one at a time: an event is sent, a client connects, a connection is read, its timer fires,
  or it is closed.  `frames` are what one connection gives in a run, `sent` are the events
  of the run.

  `Valid` is what every run keeps: the hub has its records, and no connection has a number
  that was not given.
-/
import IssueTracker.Proofs.Hub.Subscription
import IssueTracker.Service.Connection

set_option autoImplicit false

namespace IssueTracker

/-- The event that a frame carries. -/
def Frame.event? : Frame → Option Event
  | .event id topic data => some ⟨id, topic, data⟩
  | .keepalive => none

/-- What a new connection counts as replayed was sent. -/
theorem Hub.Records.replayAfter_le {config : Hub.Config} {sent : List Event} {h : Hub}
    (hrec : h.Records config sent) (filter : Topic.Filter) (lastSeen : Option Nat) :
    (Connection.replayAfter h filter lastSeen).2 ≤ h.sequence := by
  cases lastSeen with
  | none => exact Nat.zero_le _
  | some last =>
      simp only [Connection.replayAfter]
      cases hlast : (h.eventsSince last).getLast? with
      | none => exact Nat.zero_le _
      | some e =>
          have he : e ∈ h.history.toList := (List.mem_filter.1 (List.mem_of_getLast? hlast)).1
          exact (hrec.sequence_of_mem (hrec.mem_of_mem_history he)).2

/-- The hub with the clients that follow it. -/
structure Feed where
  hub : Hub
  /-- The connections that are open. -/
  connections : List Connection
  deriving Inhabited

namespace Feed

/-- What happens to the hub and its clients. -/
inductive Action where
  | broadcast (topic data : String)
  /-- A client connects, and may say what it saw last. -/
  | connect (filter : Topic.Filter) (lastSeen : Option Nat)
  | disconnect (n : Nat)
  /-- The next frame of a connection is taken. -/
  | read (n : Nat)
  /-- The keepalive timer of a connection fires. -/
  | tick (n : Nat)
  deriving DecidableEq, Repr, Inhabited

/-! ## Runs -/

/-- A hub that nobody follows yet. -/
def start (config : Hub.Config) : Feed := ⟨.ofConfig config, []⟩

/-- The number that the next connection gets. -/
def nextNumber (w : Feed) : Nat := w.hub.subscribed + 1

/-- The connection of a number. -/
def connection? (n : Nat) (w : Feed) : Option Connection :=
  w.connections.find? (·.subscriber == n)

/-- The feed after a frame was taken of a connection. -/
def put (c : Connection) (hub : Hub) (w : Feed) : Feed :=
  ⟨hub, w.connections.map fun d => if d.subscriber = c.subscriber then c else d⟩

/-- The feed after an action. -/
def step (w : Feed) : Action → Feed
  | .broadcast topic data => { w with hub := (w.hub.broadcast topic data).2 }
  | .connect filter lastSeen =>
      let (c, hub) := Connection.open filter lastSeen w.hub
      ⟨hub, w.connections ++ [c]⟩
  | .disconnect n =>
      match w.connection? n with
      | none => w
      | some c => ⟨c.close w.hub, w.connections.filter (·.subscriber != n)⟩
  | .read n =>
      match w.connection? n with
      | none => w
      | some c => w.put (c.take w.hub).2.1 (c.take w.hub).2.2
  | .tick _ => w

/-- The feed after actions. -/
def run (w : Feed) : List Action → Feed
  | [] => w
  | a :: as => (w.step a).run as

/-- The frames that an action gives to the client of a connection. -/
def given (n : Nat) (w : Feed) : Action → List Frame
  | .read m =>
      if m = n then ((w.connection? m).bind fun c => (c.take w.hub).1.map Event.frame).toList
      else []
  | .tick m => if m = n then ((w.connection? m).bind Connection.keepalive?).toList else []
  | _ => []

/-- The frames that a connection gives to its client. -/
def frames (n : Nat) (w : Feed) : List Action → List Frame
  | [] => []
  | a :: as => w.given n a ++ (w.step a).frames n as

/-- The events that a connection gives to its client. -/
def events (n : Nat) (w : Feed) (as : List Action) : List Event :=
  (w.frames n as).filterMap Frame.event?

/-- The event that an action sends. -/
def sent? (w : Feed) : Action → Option Event
  | .broadcast topic data => some ⟨w.hub.sequence + 1, topic, data⟩
  | _ => none

/-- The events that are sent when something holds of the feed and the event. -/
def sentWhen (p : Feed → Event → Bool) (w : Feed) : List Action → List Event
  | [] => []
  | a :: as => (w.sent? a).toList.filter (p w) ++ (w.step a).sentWhen p as

/-- The events that are sent. -/
def sent (w : Feed) (as : List Action) : List Event := w.sentWhen (fun _ _ => true) as

variable {config : Hub.Config} {past : List Event} {w : Feed} {n m : Nat} {as bs : List Action}

theorem run_append (w : Feed) (as bs : List Action) : w.run (as ++ bs) = (w.run as).run bs := by
  induction as generalizing w with
  | nil => rfl
  | cons a as ih => exact ih _

theorem frames_append (n : Nat) (w : Feed) (as bs : List Action) :
    w.frames n (as ++ bs) = w.frames n as ++ (w.run as).frames n bs := by
  induction as generalizing w with
  | nil => rfl
  | cons a as ih =>
      rw [List.cons_append, frames, frames, ih, List.append_assoc]
      rfl

theorem events_append (n : Nat) (w : Feed) (as bs : List Action) :
    w.events n (as ++ bs) = w.events n as ++ (w.run as).events n bs := by
  rw [events, frames_append, List.filterMap_append]
  rfl

theorem events_cons (n : Nat) (w : Feed) (a : Action) (as : List Action) :
    w.events n (a :: as) = (w.given n a).filterMap Frame.event? ++ (w.step a).events n as := by
  rw [events, frames, List.filterMap_append]
  rfl

theorem sent_cons (w : Feed) (a : Action) (as : List Action) :
    w.sent (a :: as) = (w.sent? a).toList ++ (w.step a).sent as := by
  rw [sent, sentWhen, List.filter_eq_self.2 fun _ _ => rfl]
  rfl

/-- What is sent under a condition is sent. -/
theorem sentWhen_sublist (p : Feed → Event → Bool) (w : Feed) (as : List Action) :
    (w.sentWhen p as).Sublist (w.sent as) := by
  induction as generalizing w with
  | nil => exact List.Sublist.refl _
  | cons a as ih =>
      rw [sentWhen, sent_cons]
      exact List.filter_sublist.append (ih _)

/-- What receiving keeps is kept while events are skipped. -/
theorem takePast_induction {P : Hub → Prop} {id mark : Nat}
    (hreceive : ∀ h, P h → P (h.receive id).2) (k : Nat) {h : Hub} (hh : P h) :
    P (Connection.takePast id mark k h).2 := by
  induction k generalizing h with
  | zero => exact hh
  | succ k ih =>
      have hnext := hreceive h hh
      rw [Connection.takePast]
      cases hreceived : h.receive id with
      | mk e h' =>
          rw [hreceived] at hnext
          cases e with
          | none => exact hnext
          | some e =>
              simp only
              split
              · exact ih hnext
              · exact hnext

/-- What receiving keeps is kept when a frame is taken. -/
theorem take_induction {P : Hub → Prop} {c : Connection}
    (hreceive : ∀ h, P h → P (h.receive c.subscriber).2) {h : Hub} (hh : P h) :
    P (c.take h).2.2 := by
  unfold Connection.take
  split
  · exact hh
  · exact takePast_induction hreceive _ hh

/-- Of the connection itself, a frame is taken from the front of the replay. -/
theorem take_connection (c : Connection) (h : Hub) :
    (c.take h).2.1 = { c with replay := c.replay.tail } := by
  unfold Connection.take
  split
  · rename_i e rest hreplay
    rw [hreplay, List.tail_cons]
  · rename_i hreplay
    cases c
    simp only at hreplay
    rw [hreplay, List.tail_nil]

@[simp] theorem subscriber_take (c : Connection) (h : Hub) :
    (c.take h).2.1.subscriber = c.subscriber := by
  rw [take_connection]

/-! ## What runs keep -/

/-- The feed of a configuration in which some events were sent. -/
structure Valid (config : Hub.Config) (past : List Event) (w : Feed) : Prop where
  records : Hub.Records config past w.hub
  /-- Connections have numbers that were given. -/
  known : ∀ c ∈ w.connections, c.subscriber ≤ w.hub.subscribed

theorem Valid.initial (config : Hub.Config) : Valid config [] (start config) where
  records := Hub.Records.ofConfig config
  known _ hc := absurd hc List.not_mem_nil

theorem Valid.broadcast (hw : Valid config past w) (topic data : String) :
    Valid config (past ++ [⟨w.hub.sequence + 1, topic, data⟩])
      (w.step (.broadcast topic data)) where
  records := hw.records.broadcast topic data
  known := hw.known

theorem Valid.connect (hw : Valid config past w) (filter : Topic.Filter) (lastSeen : Option Nat) :
    Valid config past (w.step (.connect filter lastSeen)) where
  records := hw.records.subscribe filter
  known c hc := by
    rcases List.mem_append.1 hc with hc | hc
    · exact Nat.le_succ_of_le (hw.known c hc)
    · rw [List.mem_singleton.1 hc]
      exact Nat.le_refl _

theorem Valid.disconnect (hw : Valid config past w) (n : Nat) :
    Valid config past (w.step (.disconnect n)) := by
  rw [step]
  cases w.connection? n with
  | none => exact hw
  | some c =>
      exact ⟨hw.records.drop c.subscriber, fun d hd => hw.known d (List.mem_filter.1 hd).1⟩

theorem Valid.read (hw : Valid config past w) (n : Nat) :
    Valid config past (w.step (.read n)) := by
  rw [step]
  cases w.connection? n with
  | none => exact hw
  | some c =>
      have hhub := take_induction (P := fun h =>
        Hub.Records config past h ∧ h.subscribed = w.hub.subscribed) (c := c)
        (fun h hh => ⟨hh.1.receive _, by rw [Hub.subscribed_receive, hh.2]⟩) ⟨hw.records, rfl⟩
      refine ⟨hhub.1, ?_⟩
      intro d hd
      simp only [put] at hd ⊢
      rw [hhub.2]
      obtain ⟨d', hd', hsame⟩ := List.mem_map.1 hd
      have hkey : d.subscriber = d'.subscriber := by
        rw [← hsame]
        split
        · rename_i hd''
          exact hd''.symm
        · rfl
      rw [hkey]
      exact hw.known d' hd'

/-- An action adds the event that it sends to the records. -/
theorem Valid.step (hw : Valid config past w) (a : Action) :
    Valid config (past ++ (w.sent? a).toList) (w.step a) := by
  cases a with
  | broadcast topic data => exact hw.broadcast topic data
  | connect filter lastSeen => exact (List.append_nil past).symm ▸ hw.connect filter lastSeen
  | disconnect n => exact (List.append_nil past).symm ▸ hw.disconnect n
  | read n => exact (List.append_nil past).symm ▸ hw.read n
  | tick n => exact (List.append_nil past).symm ▸ hw

/-- A run adds the events that it sends to the records. -/
theorem Valid.run (hw : Valid config past w) (as : List Action) :
    Valid config (past ++ w.sent as) (w.run as) := by
  induction as generalizing past w with
  | nil => exact (List.append_nil past).symm ▸ hw
  | cons a as ih =>
      rw [sent_cons, ← List.append_assoc]
      exact ih (hw.step a)

/-- What a run from the start keeps. -/
theorem Valid.of_run (config : Hub.Config) (as : List Action) :
    Valid config ((start config).sent as) ((start config).run as) :=
  (Valid.initial config).run as

end Feed

end IssueTracker
