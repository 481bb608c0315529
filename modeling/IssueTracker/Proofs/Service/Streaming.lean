/-
  IssueTracker/Proofs/Service/Streaming.lean --- what a connection gives while it is open.

  `Serves` says what an open connection has left: the rest of the replay, and behind it what
  waits in the queue.  One action takes at most the front of that away and adds at most one
  event behind it (`Advance`), so nothing is lost, repeated or moved in a run (`Serves.run`):
  what was given and what is left are the replay and then the events that found room.
-/
import IssueTracker.Proofs.Service.Feed

set_option autoImplicit false

namespace IssueTracker

namespace Feed

/-! ## What a client is to have -/

/-- The retained events that are sent first: those after the last one that the client saw, if it
says so. -/
def replayed (filter : Topic.Filter) (lastSeen : Option Nat) (w : Feed) : List Event :=
  match lastSeen with
  | none => []
  | some last =>
      w.hub.history.toList.filter fun e => last < e.sequence && filter.passes e.topic

/-- Is there room in the queue of a connection?  A queue holds as many events as a subscriber may
have waiting, and one at least. -/
def hasRoom (config : Hub.Config) (n : Nat) (w : Feed) : Bool :=
  w.hub.waiting n < max config.subscriberCapacity 1

/-- Does an event pass the filter and find room? -/
def takes (config : Hub.Config) (n : Nat) (filter : Topic.Filter) (w : Feed) (e : Event) : Bool :=
  filter.passes e.topic && w.hasRoom config n

/-- The events that pass the filter and find room in the queue of a connection. -/
def accepted (config : Hub.Config) (n : Nat) (filter : Topic.Filter) (w : Feed)
    (as : List Action) : List Event :=
  w.sentWhen (takes config n filter) as

/-- The events that a connection has left: what is not replayed yet, and what waits. -/
def unread (n : Nat) (w : Feed) : List Event :=
  (w.connection? n).elim [] (·.replay) ++ (w.hub.subscription? n).elim [] (·.queue)

variable {config : Hub.Config} {past : List Event} {filter : Topic.Filter} {n m mark : Nat}
  {w : Feed} {a : Action} {as : List Action} {replay queue : List Event}

/-! ## One action -/

/-- A connection is open, and this is what it has left. -/
structure Serves (config : Hub.Config) (n : Nat) (filter : Topic.Filter) (mark : Nat)
    (replay queue : List Event) (w : Feed) : Prop where
  configured : w.hub.config = config
  connection : w.connection? n = some ⟨n, replay, mark⟩
  subscription : w.hub.subscription? n = some ⟨n, filter, true, queue⟩
  given : n ≤ w.hub.subscribed
  /-- Nothing that waits was replayed. -/
  waiting : ∀ e ∈ queue, mark < e.sequence
  mark_le : mark ≤ w.hub.sequence

theorem connection?_put (n : Nat) (c : Connection) (h : Hub) (w : Feed) :
    (w.put c h).connection? n =
      (w.connection? n).map fun d => if n = c.subscriber then c else d := by
  exact Hub.find?_map_at Connection.subscriber (fun _ => c) (fun _ _ => rfl) n w.connections

theorem Serves.hasRoom_eq (hs : Serves config n filter mark replay queue w) :
    w.hasRoom config n = decide (queue.length < w.hub.config.queueCapacity) := by
  rw [hasRoom, Hub.waiting, hs.subscription, hs.configured]
  rfl

theorem Serves.unread_eq (hs : Serves config n filter mark replay queue w) :
    w.unread n = replay ++ queue := by
  rw [unread, hs.connection, hs.subscription]
  rfl

theorem Serves.broadcast (hs : Serves config n filter mark replay queue w) (topic data : String) :
    Serves config n filter mark replay
      (queue ++ (w.sent? (.broadcast topic data)).toList.filter (takes config n filter w))
      (w.step (.broadcast topic data)) where
  configured := hs.configured
  connection := hs.connection
  subscription := by
    have hoffer := Hub.subscription?_broadcast n topic data w.hub
    rw [hs.subscription, Option.map_some, Hub.offer_eq] at hoffer
    refine hoffer.trans ?_
    by_cases htakes : filter.passes topic && decide (queue.length < w.hub.config.queueCapacity)
    · simp [sent?, takes, hs.hasRoom_eq, htakes]
    · simp [sent?, takes, hs.hasRoom_eq, htakes]
  given := hs.given
  waiting e he := by
    rcases List.mem_append.1 he with he | he
    · exact hs.waiting e he
    · have hnew := (List.mem_filter.1 he).1
      simp only [sent?, Option.toList_some, List.mem_singleton] at hnew
      rw [hnew]
      exact Nat.lt_succ_of_le hs.mark_le
  mark_le := Nat.le_succ_of_le hs.mark_le

theorem Serves.connect (hs : Serves config n filter mark replay queue w) (other : Topic.Filter)
    (lastSeen : Option Nat) :
    Serves config n filter mark replay queue (w.step (.connect other lastSeen)) where
  configured := hs.configured
  connection := by
    have hfound := hs.connection
    rw [connection?] at hfound
    simp only [step, connection?, List.find?_append, hfound, Option.some_or]
  subscription := by
    have hne : n ≠ w.hub.subscribed + 1 := by
      have := hs.given
      omega
    exact (Hub.subscription?_subscribe_of_ne hne).trans hs.subscription
  given := Nat.le_succ_of_le hs.given
  waiting := hs.waiting
  mark_le := hs.mark_le

theorem Serves.disconnect (hs : Serves config n filter mark replay queue w) (hne : n ≠ m) :
    Serves config n filter mark replay queue (w.step (.disconnect m)) := by
  rw [step]
  cases hfound : w.connection? m with
  | none => exact hs
  | some c =>
      have hc : c.subscriber = m := by simpa using List.find?_some hfound
      have hkeep : (w.connections.filter (·.subscriber != m)).find? (·.subscriber == n) =
          w.connections.find? (·.subscriber == n) := by
        rw [List.find?_filter]
        congr 1
        funext d
        by_cases hd : d.subscriber = n
        · simp [hd, hne]
        · simp [hd]
      refine ⟨hs.configured, hkeep.trans hs.connection, ?_, hs.given, hs.waiting, hs.mark_le⟩
      simp only [Connection.close, hc]
      rw [Hub.subscription?_drop_of_ne hne]
      exact hs.subscription

/-- Who reads another connection leaves this one alone. -/
theorem Serves.read_of_ne (hs : Serves config n filter mark replay queue w) (hne : n ≠ m) :
    Serves config n filter mark replay queue (w.step (.read m)) := by
  rw [step]
  cases hfound : w.connection? m with
  | none => exact hs
  | some c =>
      have hc : c.subscriber = m := by simpa using List.find?_some hfound
      have hhub := take_induction (c := c) (P := fun h =>
        h.subscription? n = some ⟨n, filter, true, queue⟩ ∧ h.config = config ∧
          h.subscribed = w.hub.subscribed ∧ h.sequence = w.hub.sequence) (by
        rintro h ⟨hsubscription, hconfig, hsubscribed, hsequence⟩
        refine ⟨?_, by rw [Hub.config_receive, hconfig],
          by rw [Hub.subscribed_receive, hsubscribed], by rw [Hub.sequence_receive, hsequence]⟩
        rw [Hub.subscription?_receive, hsubscription, Option.map_some, hc, if_neg hne])
        ⟨hs.subscription, hs.configured, rfl, rfl⟩
      obtain ⟨hsubscription, hconfig, hsubscribed, hsequence⟩ := hhub
      refine ⟨hconfig, ?_, hsubscription, ?_, hs.waiting, ?_⟩
      · simp only
        rw [connection?_put, hs.connection, Option.map_some, subscriber_take, hc, if_neg hne]
      · exact hsubscribed.symm ▸ hs.given
      · exact hsequence.symm ▸ hs.mark_le

/-- What a connection gives when it is read, and has left then, is what taking an event gives and
leaves. -/
theorem Serves.read_of_take {e? : Option Event} {replay' queue' : List Event} {h : Hub}
    (hs : Serves config n filter mark replay queue w)
    (htake : (⟨n, replay, mark⟩ : Connection).take w.hub = (e?, ⟨n, replay', mark⟩, h))
    (hsubscription : h.subscription? n = some ⟨n, filter, true, queue'⟩)
    (hconfig : h.config = w.hub.config) (hsubscribed : h.subscribed = w.hub.subscribed)
    (hsequence : h.sequence = w.hub.sequence) (hqueue : queue' ⊆ queue) :
    w.given n (.read n) = (e?.map Event.frame).toList ∧
      Serves config n filter mark replay' queue' (w.step (.read n)) := by
  constructor
  · simp only [Feed.given, if_pos, hs.connection, Option.bind_some, htake]
  · simp only [Feed.step, hs.connection, htake]
    refine ⟨hconfig.trans hs.configured, ?_, hsubscription, ?_,
      fun e he => hs.waiting e (hqueue he), ?_⟩
    · rw [connection?_put, hs.connection, Option.map_some, if_pos rfl]
    · exact hsubscribed.symm ▸ hs.given
    · exact hsequence.symm ▸ hs.mark_le

/-- While the replay lasts, it is read. -/
theorem Serves.read_replay {e : Event} (hs : Serves config n filter mark (e :: replay) queue w) :
    w.given n (.read n) = [e.frame] ∧
      Serves config n filter mark replay queue (w.step (.read n)) := by
  have htake : (⟨n, e :: replay, mark⟩ : Connection).take w.hub =
      (some e, ⟨n, replay, mark⟩, w.hub) := rfl
  exact hs.read_of_take htake hs.subscription rfl rfl rfl (List.Subset.refl _)

/-- After the replay, the queue is read. -/
theorem Serves.read_queue {e : Event} (hs : Serves config n filter mark [] (e :: queue) w) :
    w.given n (.read n) = [e.frame] ∧ Serves config n filter mark [] queue (w.step (.read n)) := by
  have hreceived : (w.hub.receive n).1 = some e := by
    rw [Hub.receive_fst, hs.subscription]
    rfl
  have hnew : ¬ e.sequence ≤ mark := Nat.not_le_of_lt (hs.waiting e List.mem_cons_self)
  have htake : (⟨n, [], mark⟩ : Connection).take w.hub =
      (some e, ⟨n, [], mark⟩, (w.hub.receive n).2) := by
    simp only [Connection.take, Hub.waiting, hs.subscription, List.length_cons,
      Connection.takePast]
    cases hreceive : w.hub.receive n with
    | mk e' h' =>
        rw [hreceive] at hreceived
        simp only at hreceived
        subst hreceived
        simp only [if_neg hnew]
  refine hs.read_of_take htake ?_ (Hub.config_receive n _) (Hub.subscribed_receive n _)
    (Hub.sequence_receive n _) (List.subset_cons_self _ _)
  rw [Hub.subscription?_receive, hs.subscription, Option.map_some, if_pos rfl]
  rfl

/-- Where nothing is left, nothing is read. -/
theorem Serves.read_nothing (hs : Serves config n filter mark [] [] w) :
    w.given n (.read n) = [] ∧ Serves config n filter mark [] [] (w.step (.read n)) := by
  have htake : (⟨n, [], mark⟩ : Connection).take w.hub = (none, ⟨n, [], mark⟩, w.hub) := by
    simp only [Connection.take, Hub.waiting, hs.subscription, List.length_nil,
      Connection.takePast]
  exact hs.read_of_take htake hs.subscription rfl rfl rfl (List.Subset.refl _)

/-- What an action that does not close a connection does to what the connection has left. -/
structure Advance (config : Hub.Config) (n : Nat) (filter : Topic.Filter) (w : Feed) (a : Action)
    (replay queue replay' queue' : List Event) : Prop where
  /-- What is given comes from the front, what is sent and finds room goes behind. -/
  law : (w.given n a).filterMap Frame.event? ++ (replay' ++ queue') =
    replay ++ queue ++ (w.sent? a).toList.filter (takes config n filter w)
  /-- The replay comes first. -/
  front : replay <+: (w.given n a).filterMap Frame.event? ++ replay'
  /-- A keepalive means that the replay is over. -/
  keepalive : Frame.keepalive ∈ w.given n a → replay = []

/-- An action that gives nothing and sends nothing leaves all as it is. -/
theorem Advance.of_nothing (hgiven : w.given n a = []) (hsent : w.sent? a = none) :
    Advance config n filter w a replay queue replay queue where
  law := by
    rw [hgiven, hsent]
    exact (List.append_nil _).symm
  front := by
    rw [hgiven]
    exact List.prefix_rfl
  keepalive := by
    rw [hgiven]
    intro hmem
    exact absurd hmem List.not_mem_nil

/-- The next event of the replay is given. -/
theorem Advance.of_replay {e : Event} (hgiven : w.given n a = [e.frame])
    (hsent : w.sent? a = none) : Advance config n filter w a (e :: replay) queue replay queue where
  law := by
    rw [hgiven, hsent]
    exact (List.append_nil _).symm
  front := by
    rw [hgiven]
    exact List.prefix_rfl
  keepalive := by
    rw [hgiven]
    intro hmem
    simp [Event.frame] at hmem

/-- After the replay, the next event of the queue is given. -/
theorem Advance.of_queue {e : Event} (hgiven : w.given n a = [e.frame])
    (hsent : w.sent? a = none) : Advance config n filter w a [] (e :: queue) [] queue where
  law := by
    rw [hgiven, hsent]
    exact (List.append_nil _).symm
  front := List.nil_prefix
  keepalive := by
    intro _
    rfl

/-- The frames of a timer are no events, and there are none before the replay is over. -/
theorem Serves.given_tick (hs : Serves config n filter mark replay queue w) (m : Nat) :
    (w.given n (.tick m)).filterMap Frame.event? = [] ∧
      (Frame.keepalive ∈ w.given n (.tick m) → replay = []) := by
  by_cases hm : m = n
  · subst hm
    cases replay with
    | nil => simp [Feed.given, hs.connection, Connection.keepalive?, Frame.event?]
    | cons e replay => simp [Feed.given, hs.connection, Connection.keepalive?]
  · simp [Feed.given, if_neg hm]

/-- A connection that is not closed goes on with what it has left. -/
theorem Serves.step (hs : Serves config n filter mark replay queue w) (hopen : a ≠ .disconnect n) :
    ∃ replay' queue', Serves config n filter mark replay' queue' (w.step a) ∧
      Advance config n filter w a replay queue replay' queue' := by
  cases a with
  | broadcast topic data =>
      refine ⟨replay, _, hs.broadcast topic data, ?_, List.prefix_rfl, ?_⟩
      · exact (List.append_assoc replay queue _).symm
      · intro hmem
        exact absurd hmem List.not_mem_nil
  | connect other lastSeen =>
      exact ⟨replay, queue, hs.connect other lastSeen, .of_nothing rfl rfl⟩
  | disconnect m =>
      have hne : n ≠ m := fun heq => hopen (congrArg Action.disconnect heq.symm)
      exact ⟨replay, queue, hs.disconnect hne, .of_nothing rfl rfl⟩
  | read m =>
      by_cases hne : n = m
      · subst hne
        rcases replay with _ | ⟨e, replay⟩
        · rcases queue with _ | ⟨e, queue⟩
          · obtain ⟨hgiven, hnext⟩ := hs.read_nothing
            exact ⟨[], [], hnext, .of_nothing hgiven rfl⟩
          · obtain ⟨hgiven, hnext⟩ := hs.read_queue
            exact ⟨[], queue, hnext, .of_queue hgiven rfl⟩
        · obtain ⟨hgiven, hnext⟩ := hs.read_replay
          exact ⟨replay, queue, hnext, .of_replay hgiven rfl⟩
      · have hgiven : w.given n (.read m) = [] := if_neg fun heq => hne heq.symm
        exact ⟨replay, queue, hs.read_of_ne hne, .of_nothing hgiven rfl⟩
  | tick m =>
      obtain ⟨hevents, hkeepalive⟩ := hs.given_tick m
      refine ⟨replay, queue, hs, ?_, ?_, hkeepalive⟩
      · rw [hevents]
        exact (List.append_nil _).symm
      · rw [hevents]
        exact List.prefix_rfl

/-! ## Runs -/

/-- While a connection is open, what it gave and what it has left are the replay, and then what
found room. -/
theorem Serves.run (hs : Serves config n filter mark replay queue w) (hopen : .disconnect n ∉ as) :
    ∃ replay' queue', Serves config n filter mark replay' queue' (w.run as) ∧
      w.events n as ++ (replay' ++ queue') = replay ++ queue ++ w.accepted config n filter as := by
  induction as generalizing w replay queue with
  | nil => exact ⟨replay, queue, hs, (List.append_nil _).symm⟩
  | cons a as ih =>
      rw [List.mem_cons, not_or] at hopen
      obtain ⟨replay₁, queue₁, hs₁, hstep⟩ := hs.step (Ne.symm hopen.1)
      obtain ⟨replay₂, queue₂, hs₂, hlaw⟩ := ih hs₁ hopen.2
      refine ⟨replay₂, queue₂, hs₂, ?_⟩
      rw [events_cons, accepted, sentWhen, List.append_assoc, hlaw, ← List.append_assoc,
        hstep.law, List.append_assoc]
      rfl

/-- A connection is closed, and its number is not given again. -/
structure Gone (n : Nat) (w : Feed) : Prop where
  connection : w.connection? n = none
  given : n ≤ w.hub.subscribed

theorem Serves.gone (hs : Serves config n filter mark replay queue w) :
    Gone n (w.step (.disconnect n)) := by
  rw [Feed.step, hs.connection]
  refine ⟨?_, hs.given⟩
  simp [connection?]

theorem Gone.step (hg : Gone n w) (a : Action) : Gone n (w.step a) := by
  have hnone := hg.connection
  cases a with
  | broadcast topic data => exact ⟨hnone, hg.given⟩
  | tick m => exact hg
  | connect other lastSeen =>
      refine ⟨?_, Nat.le_succ_of_le hg.given⟩
      have hnext : w.hub.subscribed + 1 ≠ n := by
        have := hg.given
        omega
      rw [connection?] at hnone
      simp only [Feed.step, connection?, List.find?_append, hnone, Option.none_or]
      simp [Connection.open, Hub.subscribe, hnext]
  | disconnect m =>
      rw [Feed.step]
      cases w.connection? m with
      | none => exact hg
      | some c =>
          refine ⟨?_, hg.given⟩
          rw [connection?, List.find?_eq_none] at hnone ⊢
          intro d hd
          exact hnone d (List.mem_filter.1 hd).1
  | read m =>
      rw [Feed.step]
      cases w.connection? m with
      | none => exact hg
      | some c =>
          have hsubscribed := take_induction (c := c) (P := fun h => n ≤ h.subscribed)
            (fun h hh => (Hub.subscribed_receive _ h).symm ▸ hh) hg.given
          refine ⟨?_, hsubscribed⟩
          simp only
          rw [connection?_put, hnone, Option.map_none]

/-- A closed connection gives nothing. -/
theorem Gone.frames (hg : Gone n w) (as : List Action) : w.frames n as = [] := by
  induction as generalizing w with
  | nil => rfl
  | cons a as ih =>
      have hgiven : w.given n a = [] := by
        cases a with
        | read m =>
            by_cases hm : m = n
            · subst hm
              simp [Feed.given, hg.connection]
            · exact if_neg hm
        | tick m =>
            by_cases hm : m = n
            · subst hm
              simp [Feed.given, hg.connection]
            · exact if_neg hm
        | _ => rfl
      rw [Feed.frames, hgiven, ih (hg.step a), List.append_nil]

/-- What happens until a connection is closed. -/
def untilClosed (n : Nat) (as : List Action) : List Action := as.takeWhile (· ≠ .disconnect n)

theorem disconnect_not_mem_untilClosed (n : Nat) (as : List Action) :
    .disconnect n ∉ untilClosed n as := by
  intro hmem
  simpa using List.mem_takeWhile_imp hmem

/-- Only what happens until a connection is closed matters for what it gives. -/
theorem Serves.frames_untilClosed (hs : Serves config n filter mark replay queue w)
    (as : List Action) : w.frames n as = w.frames n (untilClosed n as) := by
  have hsplit : untilClosed n as ++ as.dropWhile (· ≠ .disconnect n) = as :=
    List.takeWhile_append_dropWhile
  obtain ⟨replay', queue', hs', -⟩ := hs.run (disconnect_not_mem_untilClosed n as)
  have hnothing :
      (w.run (untilClosed n as)).frames n (as.dropWhile (· ≠ .disconnect n)) = [] := by
    cases hrest : as.dropWhile (· ≠ .disconnect n) with
    | nil => rfl
    | cons a rest =>
        have ha : a = .disconnect n := by
          have hhead := List.head?_dropWhile_not (fun a => decide (a ≠ Action.disconnect n)) as
          rw [hrest] at hhead
          simpa using hhead
        rw [ha, Feed.frames, hs'.gone.frames rest]
        rfl
  calc w.frames n as
      = w.frames n (untilClosed n as ++ as.dropWhile (· ≠ .disconnect n)) := by rw [hsplit]
    _ = w.frames n (untilClosed n as) := by rw [frames_append, hnothing, List.append_nil]

/-! ## Keepalives -/

/-- A new connection has the replay left, and nothing waits for it. -/
theorem Valid.serves (hw : Valid config past w) (filter : Topic.Filter) (lastSeen : Option Nat) :
    ∃ mark, Serves config w.nextNumber filter mark (w.replayed filter lastSeen) []
      (w.step (.connect filter lastSeen)) := by
  have hopened : (Connection.replayAfter w.hub filter lastSeen).1 = w.replayed filter lastSeen := by
    cases lastSeen with
    | none => rfl
    | some last =>
        simp only [Connection.replayAfter, replayed, Hub.eventsSince, History.since,
          List.filter_filter]
        congr 1
        funext e
        exact Bool.and_comm _ _
  have hnew : w.connections.find? (·.subscriber == w.nextNumber) = none := by
    apply List.find?_eq_none.2
    intro c hc
    have hle := hw.known c hc
    have hne : c.subscriber ≠ w.hub.subscribed + 1 := by omega
    simpa [nextNumber] using hne
  refine ⟨(Connection.replayAfter w.hub filter lastSeen).2, hw.records.config_eq, ?_, ?_,
    Nat.le_refl _, ?_, hw.records.replayAfter_le filter lastSeen⟩
  · have hadded : (w.step (.connect filter lastSeen)).connections = w.connections ++
        [⟨w.nextNumber, w.replayed filter lastSeen,
          (Connection.replayAfter w.hub filter lastSeen).2⟩] := by
      rw [← hopened]
      rfl
    rw [connection?, hadded, List.find?_append, hnew, Option.none_or]
    exact List.find?_cons_of_pos (beq_self_eq_true _)
  · exact hw.records.subscription?_subscribe filter
  · intro e he
    exact absurd he List.not_mem_nil

/-- The replay is a part of what was sent. -/
theorem Valid.replayed_sublist (hw : Valid config past w) (filter : Topic.Filter)
    (lastSeen : Option Nat) : (w.replayed filter lastSeen).Sublist past := by
  cases lastSeen with
  | none => exact List.nil_sublist _
  | some last =>
      refine List.filter_sublist.trans ?_
      rw [hw.records.retained]
      exact List.drop_sublist _ _

/-- A client that connects is to have a part of all that is sent, in the order in which it is
sent. -/
theorem Valid.ascending (hw : Valid config past w) (filter : Topic.Filter) (lastSeen : Option Nat)
    (n : Nat) (as : List Action) :
    (w.replayed filter lastSeen ++
      (w.step (.connect filter lastSeen)).accepted config n filter as).Pairwise
        (·.sequence < ·.sequence) := by
  have hlater := (hw.connect filter lastSeen).run as
  exact hlater.records.ascending.sublist
    ((hw.replayed_sublist filter lastSeen).append (sentWhen_sublist _ _ _))

/-- What a client receives of a connection, and what the connection has left for it, are the
replay and then the events that found room. -/
theorem Valid.events_append_unread (hw : Valid config past w) (filter : Topic.Filter)
    (lastSeen : Option Nat) (during : List Action) :
    let n := w.nextNumber
    let opened := w.step (.connect filter lastSeen)
    let stay := untilClosed n during
    opened.events n during ++ (opened.run stay).unread n =
      w.replayed filter lastSeen ++ opened.accepted config n filter stay := by
  intro n opened stay
  obtain ⟨mark, hserves⟩ := hw.serves filter lastSeen
  obtain ⟨replay, queue, hlater, hlaw⟩ :=
    hserves.run (disconnect_not_mem_untilClosed w.nextNumber during)
  rw [events, hserves.frames_untilClosed during, hlater.unread_eq]
  exact hlaw.trans (by rw [List.append_nil])

end Feed

end IssueTracker
