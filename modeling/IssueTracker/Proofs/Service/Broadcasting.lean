/-
  IssueTracker/Proofs/Service/Broadcasting.lean --- what the streams show was broadcast.

  Events reach a client from the replay of its connection or from its queue in the hub.
  `Hub.Holds` says that queues and history have events that were sent, and nothing else;
  `Session.Holds` adds the replays of the open streams.  A request adds the one event that it
  broadcasts, if it does (`Holds.request`), and reading only takes away.  So over any run,
  every frame that a stream shows is a keepalive or carries an event that was sent (`Holds.run`).
-/
import IssueTracker.Proofs.Service.Feed
import IssueTracker.Proofs.Service.Publication
import IssueTracker.Proofs.Service.Unread

set_option autoImplicit false

namespace IssueTracker

/-! ## The hub -/

/-- What a connection is to replay was sent, and so was all that it counts as replayed. -/
structure Connection.Replays (sent : List Event) (c : Connection) : Prop where
  replay : ∀ e ∈ c.replay, e ∈ sent
  through : c.replayedThrough ≤ sent.length

theorem Connection.Replays.append {sent : List Event} {c : Connection} (hc : c.Replays sent)
    (more : List Event) : c.Replays (sent ++ more) where
  replay e he := List.mem_append_left _ (hc.replay e he)
  through := Nat.le_trans hc.through (List.length_append ▸ Nat.le_add_right _ _)

namespace Hub

variable {config : Config} {sent : List Event} {h : Hub} {c : Connection} {e : Event}

/-- The hub keeps its records, and what waits in its queues was sent. -/
structure Holds (config : Config) (sent : List Event) (h : Hub) : Prop
    extends Records config sent h where
  queued : ∀ s ∈ h.subscriptions, ∀ e ∈ s.queue, e ∈ sent

namespace Holds

theorem ofConfig (config : Config) : Holds config [] (ofConfig config) where
  toRecords := .ofConfig config
  queued _ hs := absurd hs List.not_mem_nil

theorem subscribe (hh : Holds config sent h) (filter : Topic.Filter) :
    Holds config sent (h.subscribe filter).2 where
  toRecords := hh.toRecords.subscribe filter
  queued s hs e he := by
    rcases List.mem_append.1 hs with hs | hs
    · exact hh.queued s hs e he
    · rw [List.mem_singleton.1 hs] at he
      exact absurd he List.not_mem_nil

theorem drop (hh : Holds config sent h) (id : Nat) : Holds config sent (h.drop id) where
  toRecords := hh.toRecords.drop id
  queued s hs := hh.queued s (List.mem_filter.1 hs).1

theorem receive (hh : Holds config sent h) (id : Nat) : Holds config sent (h.receive id).2 where
  toRecords := hh.toRecords.receive id
  queued := by
    unfold Hub.receive
    cases h.subscription? id with
    | none => exact hh.queued
    | some t =>
        intro s hs e he
        obtain ⟨old, hold, rfl⟩ := List.mem_map.1 hs
        refine hh.queued old hold e ?_
        split at he
        · exact List.mem_of_mem_tail he
        · exact he

theorem broadcast (hh : Holds config sent h) (topic data : String) :
    Holds config (sent ++ [⟨h.sequence + 1, topic, data⟩]) (h.broadcast topic data).2 where
  toRecords := hh.toRecords.broadcast topic data
  queued s hs e he := by
    obtain ⟨old, hold, rfl⟩ := List.mem_map.1 hs
    rw [offer_eq] at he
    simp only at he
    split at he
    · rcases List.mem_append.1 he with he | he
      · exact List.mem_append_left _ (hh.queued old hold e he)
      · exact List.mem_append_right _ he
    · exact List.mem_append_left _ (hh.queued old hold e he)

/-- What a connection has left was sent. -/
theorem mem_of_unread (hh : Holds config sent h) (hc : c.Replays sent) (he : e ∈ c.unread h) :
    e ∈ sent := by
  rcases List.mem_append.1 he with he | he
  · exact hc.replay e he
  · have hwaits : e ∈ h.queueOf c.subscriber := (List.mem_filter.1 he).1
    rw [queueOf] at hwaits
    cases hfound : h.subscription? c.subscriber with
    | none =>
        rw [hfound] at hwaits
        exact absurd hwaits List.not_mem_nil
    | some s =>
        rw [hfound] at hwaits
        exact hh.queued s (List.mem_of_find?_eq_some hfound) e hwaits

/-- Taking an event off a connection keeps what the hub holds, and adds nothing to the replay. -/
theorem take (hh : Holds config sent h) (hc : c.Replays sent) :
    Holds config sent (c.take h).2.2 ∧ (c.take h).2.1.Replays sent := by
  refine ⟨Feed.take_induction (fun _ hh => hh.receive c.subscriber) hh, ?_⟩
  rw [Feed.take_connection]
  exact ⟨fun e he => hc.replay e (List.mem_of_mem_tail he), hc.through⟩

theorem takeUpTo (n : Nat) (hh : Holds config sent h) (hc : c.Replays sent) :
    Holds config sent (c.takeUpTo n h).2.2 ∧ (c.takeUpTo n h).2.1.Replays sent := by
  induction n generalizing c h with
  | zero => exact ⟨hh, hc⟩
  | succ n ih =>
      obtain ⟨hhub, hrest⟩ := hh.take hc
      rw [Connection.takeUpTo]
      cases htaken : c.take h with
      | mk e? others =>
          rw [htaken] at hhub hrest
          cases e? with
          | none => exact ⟨hhub, hrest⟩
          | some e => exact ih hhub hrest

/-- A new connection replays what was sent. -/
theorem replays_open (hh : Holds config sent h) (filter : Topic.Filter) (lastSeen : Option Nat) :
    (Connection.open filter lastSeen h).1.Replays sent where
  replay e he := by
    cases lastSeen with
    | none => exact absurd he List.not_mem_nil
    | some last =>
        have hkept : e ∈ h.eventsSince last := (List.mem_filter.1 he).1
        exact hh.mem_of_mem_history (List.mem_filter.1 hkept).1
  through := by
    rw [← hh.sequence_eq]
    exact (hh.subscribe filter).replayAfter_le filter lastSeen

end Holds

end Hub

/-! ## Requests -/

namespace Server

open Service (Action Caller)

variable {s : Server} {now : Instant} {caller : Caller}

/-- What comes of a request for the hub: nothing, one event, or one subscriber with its stream. -/
inductive Stirs (s : Server) : Handled → Prop where
  | nothing {h : Handled} {a : Answer} (hanswer : h.response = .answer a)
      (hhub : h.server.hub = s.hub) : Stirs s h
  | event {h : Handled} {a : Answer} {topic data : String} (hanswer : h.response = .answer a)
      (hhub : h.server.hub = (s.hub.broadcast topic data).2) : Stirs s h
  | stream {h : Handled} {filter : Topic.Filter} {lastSeen : Option Nat}
      (hstream : h.response = .stream (Connection.open filter lastSeen s.hub).1)
      (hhub : h.server.hub = (Connection.open filter lastSeen s.hub).2) : Stirs s h

theorem stirs_shown {α : Type} (write : α → Json) (r : Except Store.Fault α) :
    Stirs s (s.shown write r) := by
  cases r <;> exact .nothing rfl rfl

theorem stirs_act (action : Action) : Stirs s (s.act now caller action) := by
  cases action with
  | health => exact .nothing rfl rfl
  | list query => exact .nothing rfl rfl
  | ready => exact .nothing rfl rfl
  | detail id => exact stirs_shown _ _
  | edges id => exact stirs_shown _ _
  | comments id => exact stirs_shown _ _
  | change op =>
      simp only [act, change]
      split
      · exact .nothing rfl rfl
      · exact .event rfl rfl
  | records after filter limit =>
      simp only [act, records]
      split <;> exact .nothing rfl rfl
  | statistics => exact .nothing rfl rfl
  | follow filter token lastSeen => exact .stream rfl rfl

theorem stirs_handleAction (read : Except Answer Action) :
    Stirs s (s.handleAction now caller read) := by
  cases read with
  | error a => exact .nothing rfl rfl
  | ok action =>
      cases hadmits : admits s.settings caller action with
      | true =>
          rw [handleAction_of_admits hadmits]
          exact stirs_act action
      | false =>
          rw [handleAction_of_not_admits hadmits]
          exact .nothing rfl rfl

/-- The same of a request as it is received; of one for the head alone, the stream is closed at
once. -/
theorem stirs_receive (s : Server) (a : Arrival) :
    Stirs s (s.receive a) ∨
      ∃ filter lastSeen,
        (s.receive a).response = .stream (Connection.open filter lastSeen s.hub).1 ∧
          (s.receive a).server.hub =
            (Connection.open filter lastSeen s.hub).1.close
              (Connection.open filter lastSeen s.hub).2 := by
  have hstirs : Stirs s (s.handleAction a.now a.sender (Action.ofRequest a.sender a.request)) :=
    stirs_handleAction _
  rw [receive_eq]
  split
  · generalize s.handleAction a.now a.sender (Action.ofRequest a.sender a.request) = h at hstirs
    cases hstirs with
    | nothing hanswer hhub =>
        simp only [headOf, hanswer]
        exact Or.inl (.nothing rfl hhub)
    | event hanswer hhub =>
        simp only [headOf, hanswer]
        exact Or.inl (.event rfl hhub)
    | stream hstream hhub =>
        simp only [headOf, hstream, hhub]
        exact Or.inr ⟨_, _, rfl, rfl⟩
  · exact Or.inl hstirs

end Server

/-! ## Sessions -/

namespace Session

open Server (Arrival Done Stirs)

/-- What happens to the service and its streams. -/
inductive Step where
  | request (a : Arrival)
  | read (number : Nat)
  /-- Time passes, and all streams are read. -/
  | advance (ms : Nat)
  | disconnect (number : Nat)
  | disconnectAll
  /-- An event is broadcast past the store. -/
  | broadcast (topic data : String)
  | collect
  deriving DecidableEq, Repr, Inhabited

/-- The service after a step. -/
def step (s : Session) : Step → Session
  | .request a => (s.request a.now a.fresh a.request).2
  | .read number => (s.read number).2
  | .advance ms => (s.advance ms).2.2
  | .disconnect number => s.disconnect number
  | .disconnectAll => s.disconnectAll
  | .broadcast topic data => (s.broadcast topic data).2
  | .collect => s.collect.2

/-- The service after steps. -/
def run (s : Session) : List Step → Session
  | [] => s
  | x :: steps => (s.step x).run steps

/-- The frames that a step shows, of whichever streams it reads. -/
def shown (s : Session) : Step → List Frame
  | .read number => (s.read number).1
  | .advance ms => (s.advance ms).1.flatMap (·.2) ++ (s.advance ms).2.1.flatMap (·.2)
  | _ => []

/-- The frames that steps show. -/
def frames (s : Session) : List Step → List Frame
  | [] => []
  | x :: steps => s.shown x ++ (s.step x).frames steps

theorem run_append (s : Session) (first second : List Step) :
    s.run (first ++ second) = (s.run first).run second := by
  induction first generalizing s with
  | nil => rfl
  | cons x first ih => exact ih _

theorem frames_append (s : Session) (first second : List Step) :
    s.frames (first ++ second) = s.frames first ++ (s.run first).frames second := by
  induction first generalizing s with
  | nil => rfl
  | cons x first ih =>
      rw [List.cons_append, frames, frames, ih, List.append_assoc]
      rfl

variable {config : Hub.Config} {sent : List Event} {hub : Hub} {s : Session} {f : Frame}
  {streams : List Stream}

/-- A keepalive, or the frame of an event that was sent. -/
def Carries (sent : List Event) (f : Frame) : Prop := f = .keepalive ∨ ∃ e ∈ sent, f = e.frame

theorem Carries.append (h : Carries sent f) (more : List Event) : Carries (sent ++ more) f := by
  rcases h with h | ⟨e, he, h⟩
  · exact Or.inl h
  · exact Or.inr ⟨e, List.mem_append_left _ he, h⟩

/-- What the streams are to replay was sent. -/
def Replays (sent : List Event) (streams : List Stream) : Prop :=
  ∀ t ∈ streams, t.connection.Replays sent

theorem Replays.append (h : Replays sent streams) (more : List Event) :
    Replays (sent ++ more) streams :=
  fun t ht => (h t ht).append more

/-- The queues, the history and the replays have events that were sent. -/
structure Holds (config : Hub.Config) (sent : List Event) (s : Session) : Prop where
  hub : s.server.hub.Holds config sent
  replays : Replays sent s.streams

/-! ## Reading -/

/-- Reading a stream shows what was sent. -/
theorem holds_read (now : Nat) (hhub : hub.Holds config sent) {t : Stream}
    (ht : t.connection.Replays sent) :
    (t.read now hub).2.2.Holds config sent ∧ (t.read now hub).2.1.connection.Replays sent ∧
      ∀ f ∈ (t.read now hub).1, Carries sent f := by
  obtain ⟨hlast, hleft⟩ :=
    hhub.takeUpTo (t.connection.replay.length + hub.waiting t.connection.subscriber) ht
  have hframes : ∀ f ∈ (t.connection.takeAll hub).1.map Event.frame, Carries sent f := by
    intro f hf
    obtain ⟨e, he, rfl⟩ := List.mem_map.1 hf
    rw [Connection.takeAll_fst] at he
    exact Or.inr ⟨e, hhub.mem_of_unread ht he, rfl⟩
  have hkeepalive : ∀ f ∈ (t.connection.takeAll hub).2.1.keepalive?.toList, Carries sent f := by
    intro f hf
    rw [Connection.keepalive?] at hf
    split at hf
    · exact Or.inl (List.mem_singleton.1 hf)
    · exact absurd hf List.not_mem_nil
  unfold Stream.read
  simp only
  split
  · exact ⟨hlast, hleft, List.forall_mem_append.2 ⟨hframes, hkeepalive⟩⟩
  · exact ⟨hlast, hleft, hframes⟩

theorem holds_readStreams (now : Nat) (hhub : hub.Holds config sent)
    (hreplays : Replays sent streams) :
    (readStreams now hub streams).2.2.Holds config sent ∧
      Replays sent (readStreams now hub streams).2.1 ∧
      ∀ f ∈ (readStreams now hub streams).1.flatMap (·.2), Carries sent f := by
  induction streams generalizing hub with
  | nil => exact ⟨hhub, hreplays, nofun⟩
  | cons t rest ih =>
      obtain ⟨ht, hrest⟩ := List.forall_mem_cons.1 hreplays
      obtain ⟨hnext, hleft, hframes⟩ := holds_read now hhub ht
      obtain ⟨hlast, hothers, hmore⟩ := ih hnext hrest
      refine ⟨hlast, List.forall_mem_cons.2 ⟨hleft, hothers⟩, ?_⟩
      simp only [readStreams, List.flatMap_cons]
      exact List.forall_mem_append.2 ⟨hframes, hmore⟩

theorem Holds.readAll (hs : Holds config sent s) :
    Holds config sent s.readAll.2 ∧ ∀ f ∈ s.readAll.1.flatMap (·.2), Carries sent f := by
  obtain ⟨hhub, hreplays, hframes⟩ := holds_readStreams s.elapsed hs.hub hs.replays
  exact ⟨⟨hhub, hreplays⟩, hframes⟩

theorem Holds.read (hs : Holds config sent s) (number : Nat) :
    Holds config sent (s.read number).2 ∧ ∀ f ∈ (s.read number).1, Carries sent f := by
  have hasked : Replays sent (s.streams.filter (·.number == number)) :=
    fun t ht => hs.replays t (List.mem_filter.1 ht).1
  obtain ⟨hhub, hreplays, hframes⟩ := holds_readStreams s.elapsed hs.hub hasked
  refine ⟨⟨hhub, ?_⟩, hframes⟩
  intro t ht
  obtain ⟨t, hold, rfl⟩ := List.mem_map.1 ht
  -- A stream that was read stands as it is now, another one as it was.
  cases hfound : (readStreams s.elapsed s.server.hub
      (s.streams.filter (·.number == number))).2.1.find? (·.number == t.number) with
  | none => exact hs.replays t hold
  | some t' => exact hreplays t' (List.mem_of_find?_eq_some hfound)

theorem Holds.advance (hs : Holds config sent s) (ms : Nat) :
    Holds config sent (s.advance ms).2.2 ∧ ∀ f ∈ s.shown (.advance ms), Carries sent f := by
  obtain ⟨hbefore, hframes⟩ := hs.readAll
  have hlater : Holds config sent { s.readAll.2 with elapsed := s.readAll.2.elapsed + ms } :=
    ⟨hbefore.hub, hbefore.replays⟩
  obtain ⟨hafter, hmore⟩ := hlater.readAll
  exact ⟨hafter, List.forall_mem_append.2 ⟨hframes, hmore⟩⟩

/-! ## Closing -/

theorem holds_close (hhub : hub.Holds config sent) (streams : List Stream) :
    (streams.foldl (fun hub t => t.connection.close hub) hub).Holds config sent := by
  induction streams generalizing hub with
  | nil => exact hhub
  | cons t rest ih => exact ih (hhub.drop t.connection.subscriber)

theorem Holds.disconnect (hs : Holds config sent s) (number : Nat) :
    Holds config sent (s.disconnect number) where
  hub := holds_close hs.hub _
  replays t ht := hs.replays t (List.mem_filter.1 ht).1

theorem Holds.disconnectAll (hs : Holds config sent s) : Holds config sent s.disconnectAll where
  hub := holds_close hs.hub _
  replays _ ht := absurd ht List.not_mem_nil

/-! ## Events -/

theorem Holds.broadcast (hs : Holds config sent s) (topic data : String) :
    Holds config (sent ++ [⟨s.server.hub.sequence + 1, topic, data⟩])
      (s.broadcast topic data).2 where
  hub := hs.hub.broadcast topic data
  replays := hs.replays.append _

/-! ## Requests to the service -/

variable {a : Arrival}

/-- The server of a session handles the request. -/
theorem server_step (s : Session) (a : Arrival) :
    (s.step (.request a)).server = (s.server.receive a).server := by
  have hreceive : s.server.handle a.now a.fresh a.request = s.server.receive a := rfl
  simp only [step, request, hreceive]
  split <;> rfl

/-- The streams of a session stay as they are, but for the one that the request opens. -/
theorem mem_streams_step {t : Stream} (ht : t ∈ (s.step (.request a)).streams) :
    t ∈ s.streams ∨ (s.server.receive a).response = .stream t.connection := by
  have hreceive : s.server.handle a.now a.fresh a.request = s.server.receive a := rfl
  simp only [step, request, hreceive] at ht
  split at ht
  · exact Or.inl ht
  · next c hstream =>
      simp only at ht
      split at ht
      · exact Or.inl ht
      · rcases List.mem_append.1 ht with ht | ht
        · exact Or.inl ht
        · rw [List.mem_singleton.1 ht]
          exact Or.inr hstream

/-- A stream that is opened is to replay what was sent. -/
theorem Holds.replays_request (hs : Holds config sent s) (a : Arrival) :
    Replays sent (s.step (.request a)).streams := by
  intro t ht
  rcases mem_streams_step ht with ht | hopened
  · exact hs.replays t ht
  · have hopen : ∃ filter lastSeen,
        t.connection = (Connection.open filter lastSeen s.server.hub).1 := by
      rcases s.server.stirs_receive a with hstirs | ⟨filter, lastSeen, hstream, -⟩
      · cases hstirs with
        | nothing hanswer => cases hanswer.symm.trans hopened
        | event hanswer => cases hanswer.symm.trans hopened
        | @stream filter lastSeen hstream =>
            exact ⟨filter, lastSeen, Server.Response.stream.inj (hopened.symm.trans hstream)⟩
      · exact ⟨filter, lastSeen, Server.Response.stream.inj (hopened.symm.trans hstream)⟩
    obtain ⟨filter, lastSeen, hconnection⟩ := hopen
    rw [hconnection]
    exact hs.hub.replays_open filter lastSeen

/-- A request that sends nothing leaves the hub with what it holds. -/
theorem Holds.hub_request (hs : Holds config sent s) (a : Arrival)
    (hsequence : (s.server.receive a).server.hub.sequence = s.server.hub.sequence) :
    (s.server.receive a).server.hub.Holds config sent := by
  rcases s.server.stirs_receive a with hstirs | ⟨filter, lastSeen, -, hhub⟩
  · cases hstirs with
    | nothing _ hhub =>
        rw [hhub]
        exact hs.hub
    | event _ hhub =>
        rw [hhub] at hsequence
        exact absurd hsequence (Nat.succ_ne_self _)
    | stream _ hhub =>
        rw [hhub]
        exact hs.hub.subscribe _
  · rw [hhub]
    exact (hs.hub.subscribe filter).drop _

/-- A request that commits sends the event of its change, and any other request sends nothing. -/
theorem Holds.request (hs : Holds config sent s) (a : Arrival) :
    (s.server.commits a = false ∧ Holds config sent (s.step (.request a))) ∨
      s.server.commits a = true ∧ ∃ op c, Done a s.server op c (s.step (.request a)).server ∧
        Holds config (sent ++ [⟨s.server.hub.sequence + 1, c.topic, c.payload.render⟩])
          (s.step (.request a)) := by
  have hreplays := hs.replays_request a
  have hserver := s.server_step a
  rcases s.server.receive_cases a with ⟨hcommits, huntouched⟩ | ⟨hcommits, op, c, hdone⟩
  · refine Or.inl ⟨hcommits, ?_, hreplays⟩
    rw [hserver]
    exact hs.hub_request a huntouched.sequence
  · refine Or.inr ⟨hcommits, op, c, hserver ▸ hdone, ?_, hreplays.append _⟩
    rw [hserver, hdone.hub]
    exact hs.hub.broadcast _ _

/-! ## Runs -/

/-- A step adds one event at most, and shows nothing else. -/
theorem Holds.step (hs : Holds config sent s) (x : Step) :
    ∃ more, more.length ≤ 1 ∧ Holds config (sent ++ more) (s.step x) ∧
      ∀ f ∈ s.shown x, Carries (sent ++ more) f := by
  have hsame : ∀ {s' : Session} {shown : List Frame}, Holds config sent s' →
      (∀ f ∈ shown, Carries sent f) →
        ∃ more, more.length ≤ 1 ∧ Holds config (sent ++ more) s' ∧
          ∀ f ∈ shown, Carries (sent ++ more) f := by
    intro s' shown hs' hshown
    refine ⟨[], Nat.zero_le 1, ?_⟩
    rw [List.append_nil]
    exact ⟨hs', hshown⟩
  cases x with
  | request a =>
      rcases hs.request a with ⟨-, hafter⟩ | ⟨-, op, c, -, hafter⟩
      · exact hsame hafter nofun
      · exact ⟨[_], Nat.le_refl 1, hafter, nofun⟩
  | read number => exact hsame (hs.read number).1 (hs.read number).2
  | advance ms => exact hsame (hs.advance ms).1 (hs.advance ms).2
  | disconnect number => exact hsame (hs.disconnect number) nofun
  | disconnectAll => exact hsame hs.disconnectAll nofun
  | broadcast topic data => exact ⟨[_], Nat.le_refl 1, hs.broadcast topic data, nofun⟩
  | collect => exact hsame ⟨hs.hub, hs.replays⟩ nofun

/-- Over a run, the streams show what was sent. -/
theorem Holds.run (hs : Holds config sent s) (steps : List Step) :
    ∃ more, more.length ≤ steps.length ∧ Holds config (sent ++ more) (s.run steps) ∧
      ∀ f ∈ s.frames steps, Carries (sent ++ more) f := by
  induction steps generalizing s sent with
  | nil =>
      refine ⟨[], Nat.le_refl 0, ?_, nofun⟩
      rw [List.append_nil]
      exact hs
  | cons x steps ih =>
      obtain ⟨first, hone, hfirst, hshown⟩ := hs.step x
      obtain ⟨others, hcount, hothers, hframes⟩ := ih hfirst
      rw [List.append_assoc] at hothers hframes
      refine ⟨first ++ others, ?_, hothers, List.forall_mem_append.2 ⟨?_, hframes⟩⟩
      · rw [List.length_append, List.length_cons]
        omega
      · intro f hf
        rw [← List.append_assoc]
        exact (hshown f hf).append others

/-- The service at the start. -/
def start (settings : Settings) (ledger : LedgerSink) (bus : Bus) : Session :=
  { server := .ofParts settings ledger bus }

theorem Holds.start (settings : Settings) (ledger : LedgerSink) (bus : Bus) :
    Holds settings.hub [] (start settings ledger bus) where
  hub := .ofConfig settings.hub
  replays _ ht := absurd ht List.not_mem_nil

/-- Each step sends one event at most, so the numbers of a run have 64 bits unless it has more
steps than that. -/
theorem sequence_run_le (settings : Settings) (ledger : LedgerSink) (bus : Bus)
    (steps : List Step) :
    ((start settings ledger bus).run steps).server.hub.sequence ≤ steps.length := by
  obtain ⟨sent, hcount, hs, -⟩ := (Holds.start settings ledger bus).run steps
  rw [hs.hub.sequence_eq, List.nil_append]
  exact hcount

end Session

end IssueTracker
