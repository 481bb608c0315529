/-
  IssueTracker/Proofs/Service/Wire.lean --- what is published of a change survives the stream.

  A change is published under one of ten topics, and with the text of an object: neither has
  controls or a space at the front, whatever texts the client sent (`Change.survives`).  A frame
  with the number of the event is the frame of the event, whichever stream shows it and whenever,
  since numbers are given once (`Holds.eq_frame_of_sequence`).
-/
import IssueTracker.Proofs.Service.Broadcasting
import IssueTracker.Proofs.Stream.Fidelity

set_option autoImplicit false

namespace IssueTracker

open Text (Plain)

/-! ## Changes -/

namespace Store.Change

theorem topic_mem_all (c : Change) : c.topic ∈ Topic.all := by
  cases c <;> simp [topic, Topic.all]

/-- The topics of the tracker are plain. -/
theorem plain_topic (c : Change) : Plain c.topic.toList := by
  have hall : ∀ topic ∈ Topic.all,
      Text.Unbroken topic.toList ∧ topic.toList.head? ≠ some ' ' := by
    decide +kernel
  obtain ⟨hunbroken, hhead⟩ := hall c.topic c.topic_mem_all
  exact ⟨hunbroken, hhead⟩

theorem exists_payload_eq (c : Change) : ∃ members, c.payload = .object members := by
  cases c <;> exact ⟨_, rfl⟩

/-- The text of an object is plain, whatever it holds. -/
theorem plain_payload (c : Change) : Plain c.payload.render.toList := by
  rw [Json.render, String.toList_ofList]
  refine ⟨Json.unbroken_chars _, ?_⟩
  obtain ⟨members, hpayload⟩ := c.exists_payload_eq
  rw [hpayload, Json.head?_chars_object]
  decide

/-- The event of a change survives the stream. -/
theorem survives (c : Change) {sequence : Nat} (hsequence : sequence ≤ Text.maxWord64) :
    (⟨sequence, c.topic, c.payload.render⟩ : Event).Survives :=
  .of_plain hsequence c.plain_topic c.plain_payload

end Store.Change

/-! ## Streams -/

namespace Session

open Server (Arrival)
open Service (Asks mutationTopic?)
open Store (Commits)

variable {config : Hub.Config} {sent : List Event} {s : Session} {e : Event}

/-- A frame with the number of an event that was sent is the frame of this event. -/
theorem Holds.eq_frame_of_sequence (hs : Holds config sent s) (he : e ∈ sent)
    {topic data : String} (hf : Carries sent (.event e.sequence topic data)) :
    Frame.event e.sequence topic data = e.frame := by
  rcases hf with hf | ⟨e', he', hf⟩
  · cases hf
  · have hsame : e.sequence = e'.sequence := (Frame.event.inj hf).1
    rw [hf, hs.hub.eq_of_sequence_eq he he' hsame]

/-- An open stream that expects the topic of an event shows the event, once it is sent. -/
theorem Holds.shows_broadcast (hs : Holds config sent s) {t : Stream} (ht : t ∈ s.streams)
    {topic : String} (hexpects : s.server.hub.Expects t.connection.subscriber topic)
    (data : String) :
    t.Shows (Frame.event (s.server.hub.sequence + 1) topic data)
      (s.server.hub.broadcast topic data).2 := by
  have hthrough : t.connection.replayedThrough ≤ s.server.hub.sequence := by
    rw [hs.hub.sequence_eq]
    exact (hs.replays t ht).through
  exact Stream.shows_of_mem_unread (Connection.mem_unread_broadcast hexpects hthrough data)

/-- Whatever a client sends: a request on one of the ten routes that is answered with success has
the hub broadcast one event, with the text of the value that the store committed.  An open stream
that expects the topic shows its frame, and so does, at the end of a run, a stream that is opened
to see what comes after an earlier number while the event is retained.  Over the whole run, in
which streams are opened, read, and closed and other events are broadcast, every frame that any
stream shows under the number of this event, live or from its replay, is the frame of this
event; its text is the line of the number, the line of the topic, one line of data and an
empty line, without carriage returns, and a decoder reads the event as it was, behind any frames
and in any pieces.  Any other request broadcasts nothing.  Events are numbered in 64 bits, which
is enough for every run of fewer than 2^64 steps (`sequence_run_le`). -/
theorem published_events_survive (settings : Settings) (ledger : LedgerSink) (bus : Bus)
    (steps : List Step)
    (hnumber : ((start settings ledger bus).run steps).server.hub.sequence ≤ Text.maxWord64) :
    ∀ earlier a later, steps = earlier ++ .request a :: later →
      let s := (start settings ledger bus).run earlier
      let s' := s.step (.request a)
      let hub := ((start settings ledger bus).run steps).server.hub
      (s.server.commits a = true →
        ∃ op topic payload actor, a.request.TellsOr "x-beads-actor" "anonymous" actor ∧
          Asks actor a.request op ∧ mutationTopic? a.request = some topic ∧
          Commits s.server.store s'.server.store op payload ∧
          s'.server.hub = (s.server.hub.broadcast topic payload.render).2 ∧
          let e : Event := ⟨s.server.hub.sequence + 1, topic, payload.render⟩
          (∀ t ∈ s.streams, s.server.hub.Expects t.connection.subscriber topic →
            t.Shows e.frame s'.server.hub) ∧
          (∀ (filter : Topic.Filter) (last : Nat) (t : Stream), filter.passes topic = true →
            last < e.sequence → hub.sequence < e.sequence + max settings.hub.ringCapacity 1 →
            t.connection = (Connection.open filter (some last) hub).1 →
              t.Shows e.frame (Connection.open filter (some last) hub).2) ∧
          (∀ topic data, .event e.sequence topic data ∈ (start settings ledger bus).frames steps →
            Frame.event e.sequence topic data = e.frame) ∧
          e.Survives) ∧
      (s.server.commits a = false → s'.server.hub.sequence = s.server.hub.sequence) := by
  rintro earlier a later rfl s s' hub
  obtain ⟨sent, -, hs, hearlier⟩ := (Holds.start settings ledger bus).run earlier
  rw [List.nil_append] at hs hearlier
  rcases hs.request a with ⟨hcommits, hafter⟩ | ⟨hcommits, op, c, hdone, hafter⟩
  · refine ⟨fun h => ?_, fun _ => hafter.hub.sequence_eq.trans hs.hub.sequence_eq.symm⟩
    rw [hcommits] at h
    cases h
  · refine ⟨fun _ => ?_, fun h => ?_⟩
    · have htopic : c.topic = op.topic := Store.topic_of_effect hdone.effect
      refine ⟨op, c.topic, c.payload, a.sender.actor, a.request.tellsOr_getD _ _, hdone.asks,
        htopic ▸ hdone.route, .of_effect hdone.effect, hdone.hub, ?_⟩
      intro e
      obtain ⟨more, -, hlast, hlater⟩ := hafter.run later
      have he : e ∈ sent ++ [e] ++ more :=
        List.mem_append_left _ (List.mem_append_right _ List.mem_cons_self)
      have hrun : (start settings ledger bus).run (earlier ++ .request a :: later) =
          s'.run later := run_append _ _ _
      refine ⟨fun t ht hexpects => ?_, fun filter last t hpasses hafter hretained ht => ?_,
        fun topic data hshown => ?_, c.survives ?_⟩
      · rw [hdone.hub]
        exact hs.shows_broadcast ht hexpects _
      · refine Stream.shows_of_mem_unread ?_
        rw [ht]
        rw [← hrun] at hlast
        exact hlast.hub.mem_unread_open he hretained hpasses hafter
      · rw [frames_append, List.mem_append] at hshown
        have hcarries : Carries (sent ++ [e] ++ more) (.event e.sequence topic data) := by
          rcases hshown with hshown | hshown
          · exact ((hearlier _ hshown).append [e]).append more
          · exact hlater _ hshown
        exact hlast.eq_frame_of_sequence he hcarries
      · rw [hrun] at hnumber
        exact Nat.le_trans (hlast.hub.sequence_of_mem he).2 hnumber
    · rw [hcommits] at h
      cases h

/-- A title with line feeds, a carriage return and text that looks like a line of the stream: one
stream shows the event live, another from its replay, and a ledger that is out of order does not
matter. -/
theorem title_like_a_frame_survives :
    let ledger : LedgerSink := { availability := .failing }
    let earlier : List Step :=
      [.request ⟨⟨0, 0⟩, "a", ⟨.post, "/api/beads", [("content-type", "application/json")],
         "\x7b\"title\":\"a\\n\\nid:9\\r \\u0007\\\"\"\x7d"⟩⟩,
       .request ⟨⟨1, 0⟩, "b", ⟨.get, "/api/events/stream", [], ""⟩⟩]
    let a : Arrival := ⟨⟨2, 0⟩, "c", ⟨.delete, "/api/beads/bd-1", [], ""⟩⟩
    let later : List Step :=
      [.read 1,
       .request ⟨⟨3, 0⟩, "d", ⟨.get, "/api/events/stream", [("last-event-id", "1")], ""⟩⟩,
       .read 2]
    let steps := earlier ++ .request a :: later
    let e : Event := ⟨2, "beads.bead.deleted",
      "\x7b\"id\":\"bd-1\",\"title\":\"a\\n\\nid:9\\r \\u0007\\\"\"\x7d"⟩
    ((start {} ledger {}).run steps).server.hub.sequence ≤ Text.maxWord64 ∧
      ((start {} ledger {}).run earlier).server.commits a = true ∧
      (start {} ledger {}).frames steps = [e.frame, e.frame] ∧ e.Survives := by
  intro ledger earlier a later steps e
  have hnumber : ((start {} ledger {}).run steps).server.hub.sequence ≤ Text.maxWord64 :=
    Nat.le_trans (sequence_run_le {} ledger {} steps) (by decide)
  have hcommits : ((start {} ledger {}).run earlier).server.commits a = true := by
    decide +kernel
  have hsequence : ((start {} ledger {}).run earlier).server.hub.sequence = 1 := by
    decide +kernel
  have hframes : (start {} ledger {}).frames steps = [e.frame, e.frame] := by
    decide +kernel
  obtain ⟨op, topic, payload, actor, -, -, -, -, -, -, -, hshown, hsurvives⟩ :=
    (published_events_survive {} ledger {} steps hnumber earlier a later rfl).1 hcommits
  rw [hsequence, hframes] at hshown
  rw [hsequence] at hsurvives
  have hsame : e.frame = Frame.event 2 topic payload.render :=
    hshown e.topic e.data List.mem_cons_self
  obtain ⟨-, htopic, hdata⟩ := Frame.event.inj hsame
  rw [← htopic, ← hdata] at hsurvives
  exact ⟨hnumber, hcommits, hframes, hsurvives⟩

end Session

end IssueTracker
