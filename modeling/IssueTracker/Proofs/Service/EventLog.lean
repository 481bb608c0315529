/-
  IssueTracker/Proofs/Service/EventLog.lean --- the events give the store back.

  Whoever follows the events from the start on has a copy of the store after every request
  (`Followed`).  A request that commits is one event more, and what the event says of the change
  is all that the copy has to know; any other request is no event, and the store stays as it was.
-/
import IssueTracker.Proofs.Service.Publication
import IssueTracker.Proofs.Store.Replica

set_option autoImplicit false

namespace IssueTracker

namespace Server

open Store (Change Mirrors Numbered Operation Sound)

variable {s s' : Server} {a : Arrival} {op : Operation} {c : Change} {config : Hub.Config}
  {before : List Bus.Message} {events : List Event} {r : Replica}

/-- Whoever follows the events that were told has made this copy of the store. -/
structure Followed (config : Hub.Config) (before : List Bus.Message) (events : List Event)
    (r : Replica) (s : Server) : Prop extends Told config before events s where
  replayed : Replica.replay (events.map message) = some r
  mirrors : Mirrors r s.store
  numbered : Numbered s.store
  sound : Sound s.store
  /-- The instants in the store can be written and read. -/
  keeps : s.store.Keeps Instant.Shown

namespace Followed

theorem ofParts (settings : Settings) (ledger : LedgerSink) (bus : Bus) :
    Followed settings.hub bus.offered.toList [] {} (ofParts settings ledger bus) where
  toTold := .ofParts settings ledger bus
  replayed := rfl
  mirrors := .empty
  numbered := .empty
  sound := .empty
  keeps := .empty

theorem untouched (h : Followed config before events r s) (huntouched : Untouched s s') :
    Followed config before events r s' where
  toTold := h.toTold.untouched huntouched
  replayed := h.replayed
  mirrors := huntouched.store ▸ h.mirrors
  numbered := huntouched.store ▸ h.numbered
  sound := huntouched.store ▸ h.sound
  keeps := huntouched.store ▸ h.keeps

/-- The copy does what was done to the store. -/
theorem done (h : Followed config before events r s) (hdone : Done a s op c s')
    (hclock : a.now.Shown) (hnumber : s'.store.commented ≤ Text.maxWord64) :
    Followed config before (events ++ [⟨events.length + 1, c.topic, c.payload.render⟩])
      (r.after c) s' := by
  obtain ⟨hchange, hkeeps⟩ := h.keeps.effect hclock hdone.effect hnumber
  refine ⟨h.toTold.done hdone, ?_, ?_, ?_, ?_, hkeeps⟩
  · have hreplayed : (events.map message).foldlM Replica.apply {} = some r := h.replayed
    rw [Replica.replay, List.map_append, List.foldlM_append, hreplayed]
    simp only [List.map_cons, List.map_nil, List.foldlM_cons, List.foldlM_nil, message,
      Option.bind_eq_bind, Option.bind_some, Replica.apply_change hchange, pure]
  · exact h.mirrors.effect h.numbered h.sound hdone.effect
  · exact h.numbered.effect hdone.effect
  · exact h.sound.effect hdone.effect

theorem receive (h : Followed config before events r s) (a : Arrival) (hclock : a.now.Shown)
    (hnumber : (s.receive a).server.store.commented ≤ Text.maxWord64) :
    ∃ events r, Followed config before events r (s.receive a).server := by
  rcases s.receive_cases a with ⟨-, huntouched⟩ | ⟨-, op, c, hdone⟩
  · exact ⟨events, r, h.untouched huntouched⟩
  · exact ⟨_, _, h.done hdone hclock hnumber⟩

theorem serve (h : Followed config before events r s) (arrivals : List Arrival)
    (hclock : ∀ a ∈ arrivals, a.now.Shown)
    (hnumber : (s.serve arrivals).store.commented ≤ Text.maxWord64) :
    ∃ events r, Followed config before events r (s.serve arrivals) := by
  induction arrivals generalizing s events r with
  | nil => exact ⟨events, r, h⟩
  | cons a rest ih =>
      rw [List.forall_mem_cons] at hclock
      have hfirst := Nat.le_trans ((s.receive a).server.commented_le_serve rest) hnumber
      obtain ⟨events, r, hnext⟩ := h.receive a hclock.1 hfirst
      exact ih hnext hclock.2 hnumber

end Followed

/-- The service starts with an empty store, and with any ledger and any bus.  After any run, the
events that the hub has sent are those that the bus was offered, in the same order; whoever
follows them from an empty copy on can read every one of them, and has the beads of the store,
but for the times of their last changes, and its edges and its comments.  The clock shows
instants of the calendar, and comments are numbered in 64 bits, which is enough for every run of
fewer than 2^64 requests (`commented_serve_le`). -/
theorem events_give_store_back (settings : Settings) (ledger : LedgerSink) (bus : Bus)
    (arrivals : List Arrival) (hclock : ∀ a ∈ arrivals, a.now.Shown)
    (hnumber : ((ofParts settings ledger bus).serve arrivals).store.commented ≤ Text.maxWord64) :
    let final := (ofParts settings ledger bus).serve arrivals
    ∃ events : List Event,
      events.map (·.sequence) = List.range' 1 final.hub.sequence ∧
      final.hub.history.toList = events.rtake (max settings.hub.ringCapacity 1) ∧
      final.bus.offered.toList = bus.offered.toList ++ events.map message ∧
      ∃ r, Replica.replay (events.map message) = some r ∧
        r.beads.map Bead.undated = final.store.beads.map Bead.undated ∧
        r.dependencies = final.store.dependencies ∧ r.comments = final.store.comments := by
  intro final
  have hstart := Followed.ofParts settings ledger bus
  obtain ⟨events, r, h⟩ := hstart.serve arrivals hclock hnumber
  refine ⟨events, ?_, h.retained, h.offered, r, h.replayed, h.mirrors.beads,
    h.mirrors.dependencies, h.mirrors.comments⟩
  rw [h.numbers, ← h.sequence]

/-- The comment of the deleted bead is gone from the copy too, though no event speaks of it, and a
ledger that is out of order does not matter. -/
theorem copy_after_deletion :
    let json := [("content-type", "application/json")]
    let arrivals : List Arrival :=
      [⟨⟨0, 0⟩, "a", ⟨.post, "/api/beads", json, "\x7b\"title\":\"t\"\x7d"⟩⟩,
       ⟨⟨1, 5⟩, "b", ⟨.post, "/api/beads/bd-1/comments", json, "\x7b\"text\":\"seen\"\x7d"⟩⟩,
       ⟨⟨2, 0⟩, "c", ⟨.post, "/api/beads/bd-2/close", [], ""⟩⟩,
       ⟨⟨3, 0⟩, "d", ⟨.post, "/api/beads", json, "\x7b\"title\":\"u\"\x7d"⟩⟩,
       ⟨⟨4, 0⟩, "e", ⟨.delete, "/api/beads/bd-1", [], ""⟩⟩]
    let final := (ofParts {} { availability := .failing } {}).serve arrivals
    (∀ a ∈ arrivals, a.now.Shown) ∧ final.store.commented ≤ Text.maxWord64 ∧
      ∃ r, Replica.replay final.bus.offered.toList = some r ∧
        r.beads.map (·.id) = ["bd-2"] ∧ r.comments = [] := by
  intro json arrivals final
  have hclock : ∀ a ∈ arrivals, a.now.Shown := by
    simp only [arrivals, List.forall_mem_cons, List.not_mem_nil, false_implies, implies_true,
      and_true]
    refine ⟨⟨?_, Or.inl ?_⟩, ⟨?_, Or.inl ?_⟩, ⟨?_, Or.inl ?_⟩, ⟨?_, Or.inl ?_⟩, ⟨?_, Or.inl ?_⟩⟩ <;>
      decide
  have hnumber : final.store.commented ≤ Text.maxWord64 :=
    Nat.le_trans (commented_serve_le _ arrivals) (by decide)
  obtain ⟨events, -, -, hoffered, r, hreplay, hbeads, -, hcomments⟩ :=
    events_give_store_back {} { availability := .failing } {} arrivals hclock hnumber
  have hstore : final.store.beads.map (·.id) = ["bd-2"] ∧ final.store.comments = [] := by
    decide +kernel
  have hids : ∀ bs : List Bead, bs.map (·.id) = (bs.map Bead.undated).map (·.id) := by
    intro bs
    rw [List.map_map]
    rfl
  refine ⟨hclock, hnumber, r, ?_, ?_, hcomments.trans hstore.2⟩
  · rw [hoffered]
    exact hreplay
  · rw [hids, hbeads, ← hids]
    exact hstore.1

end Server

end IssueTracker
