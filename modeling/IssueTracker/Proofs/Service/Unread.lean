/-
  IssueTracker/Proofs/Service/Unread.lean --- reading a stream shows all that it has left.

  A connection has left what is not replayed yet, and then whatever waits in its queue and is
  past its mark (`Connection.unread`).  To take an event is to take the front of that
  (`take_eq`), and there is never less fuel than events, so that reading a stream shows all of
  it, in order (`Stream.read_fst`).
-/
import IssueTracker.Proofs.Hub.Subscription
import IssueTracker.Service.Session

set_option autoImplicit false

namespace IssueTracker

/-! ## Queues -/

namespace Hub

variable {h : Hub} {id : Nat}

/-- What waits for a subscriber. -/
def queueOf (id : Nat) (h : Hub) : List Event := (h.subscription? id).elim [] (·.queue)

theorem waiting_eq (id : Nat) (h : Hub) : h.waiting id = (h.queueOf id).length := by
  rw [waiting, queueOf]
  cases h.subscription? id <;> rfl

/-- Receiving takes the front of the queue. -/
theorem receive_queueOf (id : Nat) (h : Hub) :
    (h.receive id).1 = (h.queueOf id).head? ∧
      (h.receive id).2.queueOf id = (h.queueOf id).tail := by
  rw [receive_fst, queueOf, queueOf, subscription?_receive]
  cases h.subscription? id with
  | none => exact ⟨rfl, rfl⟩
  | some s => simp [Subscription.pop]

end Hub

/-! ## Connections -/

namespace Connection

variable {c : Connection} {h : Hub}

/-- Events up to a mark are skipped, and the first one past it is taken. -/
theorem takePast_eq (id mark : Nat) {k : Nat} (hk : (h.queueOf id).length ≤ k) :
    let past := (h.queueOf id).filter (mark < ·.sequence)
    (takePast id mark k h).1 = past.head? ∧
      ((takePast id mark k h).2.queueOf id).filter (mark < ·.sequence) = past.tail := by
  intro past
  induction k generalizing h with
  | zero =>
      have hnone : h.queueOf id = [] := List.length_eq_zero_iff.1 (Nat.le_zero.1 hk)
      simp [past, takePast, hnone]
  | succ k ih =>
      obtain ⟨hfront, hrest⟩ := h.receive_queueOf id
      rw [takePast]
      cases hreceived : h.receive id with
      | mk e? h' =>
          rw [hreceived] at hfront hrest
          simp only at hfront hrest
          subst hfront
          cases hqueue : h.queueOf id with
          | nil =>
              rw [hqueue] at hrest
              simp [past, hqueue, hrest]
          | cons e queue =>
              rw [hqueue] at hrest hk
              simp only [List.head?_cons]
              by_cases hmark : e.sequence ≤ mark
              · have hskip : past = queue.filter (mark < ·.sequence) := by
                  simp [past, hqueue, Nat.not_lt.2 hmark]
                have hnext := ih (h := h') (by rw [hrest]; exact Nat.le_of_succ_le_succ hk)
                rw [if_pos hmark, hskip]
                rwa [hrest] at hnext
              · have htaken : past = e :: queue.filter (mark < ·.sequence) := by
                  simp [past, hqueue, Nat.not_le.1 hmark]
                rw [if_neg hmark, htaken, hrest]
                exact ⟨rfl, rfl⟩

/-- What a connection has left. -/
def unread (c : Connection) (h : Hub) : List Event :=
  c.replay ++ (h.queueOf c.subscriber).filter (c.replayedThrough < ·.sequence)

/-- Taking an event takes the front of what is left. -/
theorem take_eq (c : Connection) (h : Hub) :
    (c.take h).1 = (c.unread h).head? ∧
      (c.take h).2.1.unread (c.take h).2.2 = (c.unread h).tail := by
  unfold take
  split
  · next e rest hreplay => simp [unread, hreplay]
  · next hreplay =>
      have hpast := takePast_eq c.subscriber c.replayedThrough
        (Nat.le_of_eq (Hub.waiting_eq c.subscriber h).symm)
      simpa only [unread, hreplay, List.nil_append] using hpast

theorem takeUpTo_fst (n : Nat) (c : Connection) (h : Hub) :
    (c.takeUpTo n h).1 = (c.unread h).take n := by
  induction n generalizing c h with
  | zero => rfl
  | succ n ih =>
      obtain ⟨hfront, hrest⟩ := c.take_eq h
      rw [takeUpTo]
      cases htaken : c.take h with
      | mk e? others =>
          rw [htaken] at hfront hrest
          simp only at hfront hrest
          subst hfront
          cases hunread : c.unread h with
          | nil => rfl
          | cons e unread =>
              rw [hunread] at hrest
              simp only [List.head?_cons]
              rw [ih, hrest]
              rfl

/-- All that is left is taken. -/
theorem takeAll_fst (c : Connection) (h : Hub) : (c.takeAll h).1 = c.unread h := by
  rw [takeAll, takeUpTo_fst, Hub.waiting_eq, unread]
  apply List.take_of_length_le
  rw [List.length_append]
  exact Nat.add_le_add_left (List.length_filter_le _ _) _

end Connection

/-! ## Events that are to be shown -/

variable {config : Hub.Config} {sent : List Event} {h : Hub} {c : Connection} {e : Event}
  {topic : String}

/-- A subscriber is to have the events of a topic, and has room for one. -/
def Hub.Expects (h : Hub) (id : Nat) (topic : String) : Prop :=
  ∃ s, h.subscription? id = some s ∧ s.registered = true ∧ s.filter.passes topic = true ∧
    s.queue.length < h.config.queueCapacity

/-- An event that is expected is left for the connection, once it is sent. -/
theorem Connection.mem_unread_broadcast (hexpects : h.Expects c.subscriber topic)
    (hthrough : c.replayedThrough ≤ h.sequence) (data : String) :
    ⟨h.sequence + 1, topic, data⟩ ∈ c.unread (h.broadcast topic data).2 := by
  obtain ⟨s, hs, hregistered, hpasses, hroom⟩ := hexpects
  have hqueue : (⟨h.sequence + 1, topic, data⟩ : Event) ∈
      (h.broadcast topic data).2.queueOf c.subscriber := by
    rw [Hub.queueOf, Hub.subscription?_broadcast, hs, Option.map_some, Hub.offer_eq]
    simp [hregistered, hpasses, hroom]
  refine List.mem_append_right _ (List.mem_filter.2 ⟨hqueue, ?_⟩)
  simpa using Nat.lt_succ_of_le hthrough

/-- An event that is retained is left for a connection that asks for what is after an earlier
one. -/
theorem Hub.Records.mem_unread_open (hrec : h.Records config sent) (he : e ∈ sent)
    (hretained : h.sequence < e.sequence + max config.ringCapacity 1) {filter : Topic.Filter}
    (hpasses : filter.passes e.topic = true) {last : Nat} (hlast : last < e.sequence) :
    e ∈ (Connection.open filter (some last) h).1.unread
      (Connection.open filter (some last) h).2 := by
  have hkept : e ∈ h.eventsSince last := by
    refine List.mem_filter.2 ⟨(hrec.mem_history he).2 hretained, ?_⟩
    simpa using hlast
  exact List.mem_append_left _ (List.mem_filter.2 ⟨hkept, hpasses⟩)

/-! ## Streams -/

namespace Session

/-- Whenever the stream is read, it shows the frame. -/
def Stream.Shows (f : Frame) (hub : Hub) (t : Stream) : Prop := ∀ now, f ∈ (t.read now hub).1

/-- A stream that is read shows all that it has left, and a keepalive behind that if one is due. -/
theorem Stream.read_fst (now : Nat) (hub : Hub) (t : Stream) :
    (t.read now hub).1 = (t.connection.unread hub).map Event.frame ++
      if t.timer.isDue now then (t.connection.takeAll hub).2.1.keepalive?.toList else [] := by
  rw [← Connection.takeAll_fst, read]
  simp only
  split
  · rfl
  · exact (List.append_nil _).symm

theorem Stream.shows_of_mem_unread {t : Stream} (he : e ∈ t.connection.unread h) :
    t.Shows e.frame h := by
  intro now
  rw [Stream.read_fst]
  exact List.mem_append_left _ (List.mem_map_of_mem he)

end Session

end IssueTracker
