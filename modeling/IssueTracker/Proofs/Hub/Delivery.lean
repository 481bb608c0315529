/-
  IssueTracker/Proofs/Hub/Delivery.lean --- the hub answers each subscriber as its mailbox does.

  `turn?` is what a call on the hub is to one subscriber, and nothing if it is another one's
  affair.  `Mirrors.step` says that a call does to the entry in the hub what the turn does
  to the mailbox; `answers_eq` is the same for runs.  The rest follows from the mailbox alone:
  events come in order and once, and nobody else has a say in what comes.
-/
import IssueTracker.Proofs.Hub.Mailbox

set_option autoImplicit false

namespace IssueTracker

namespace Hub

variable {config : Config} {sent : List Event} {h : Hub} {m : Mailbox} {id : Nat}

/-- What a call is to one subscriber. -/
def Op.turn? (id : Nat) : Op → Option Mailbox.Turn
  | subscribe _ => none
  | unsubscribe other => if other = id then some .unsubscribe else none
  | drop other => if other = id then some .drop else none
  | broadcast topic data => some (.broadcast topic data)
  | receive other => if other = id then some .receive else none

/-- What the hub answers one subscriber at a call: something only if the subscriber asks. -/
def answer (id : Nat) (h : Hub) : Op → List (Option Event)
  | .receive other => if other = id then [(h.receive other).1] else []
  | _ => []

/-- What the hub answers one subscriber, each time that it asks. -/
def answers (id : Nat) (h : Hub) : List Op → List (Option Event)
  | [] => []
  | op :: ops => h.answer id op ++ (h.step op).answers id ops

/-- The entry of a subscriber in the hub, and its mailbox, are the same.  Without a handle there
is no entry, and the mailbox neither takes nor gives anything. -/
structure Mirrors (id : Nat) (h : Hub) (m : Mailbox) : Prop where
  given : id ≤ h.subscribed
  capacity_eq : m.capacity = h.config.queueCapacity
  sequence_eq : m.sequence = h.sequence
  entry : h.subscription? id = some ⟨id, m.filter, m.registered, m.queue⟩ ∨
    h.subscription? id = none ∧ m.registered = false ∧ m.queue = []

/-- A new subscriber has a new mailbox. -/
theorem Records.mirrors_subscribe (hrec : Records config sent h) (filter : Topic.Filter) :
    Mirrors (h.subscribe filter).1 (h.subscribe filter).2
      (.fresh filter (max config.subscriberCapacity 1) sent.length) where
  given := Nat.le_refl _
  capacity_eq := by
    rw [← hrec.config_eq]
    rfl
  sequence_eq := hrec.sequence_eq.symm
  entry := Or.inl (hrec.subscription?_subscribe filter)

theorem Mirrors.subscribe (hm : Mirrors id h m) (filter : Topic.Filter) :
    Mirrors id (h.subscribe filter).2 m where
  given := Nat.le_succ_of_le hm.given
  capacity_eq := hm.capacity_eq
  sequence_eq := hm.sequence_eq
  entry := by
    have hne : id ≠ h.subscribed + 1 := by
      have := hm.given
      omega
    rw [subscription?_subscribe_of_ne hne]
    exact hm.entry

theorem Mirrors.unsubscribe_self (hm : Mirrors id h m) :
    Mirrors id (h.unsubscribe id) (m.step .unsubscribe) where
  given := hm.given
  capacity_eq := hm.capacity_eq
  sequence_eq := hm.sequence_eq
  entry := by
    rw [subscription?_unsubscribe]
    rcases hm.entry with hentry | ⟨hentry, -, hqueue⟩
    · refine Or.inl ?_
      rw [hentry, Option.map_some, if_pos rfl]
      rfl
    · refine Or.inr ⟨?_, rfl, hqueue⟩
      rw [hentry, Option.map_none]

theorem Mirrors.unsubscribe_of_ne (hm : Mirrors id h m) {other : Nat} (hne : id ≠ other) :
    Mirrors id (h.unsubscribe other) m where
  given := hm.given
  capacity_eq := hm.capacity_eq
  sequence_eq := hm.sequence_eq
  entry := by
    rw [subscription?_unsubscribe]
    simp only [if_neg hne, Option.map_id']
    exact hm.entry

theorem Mirrors.drop_self (hm : Mirrors id h m) : Mirrors id (h.drop id) (m.step .drop) where
  given := hm.given
  capacity_eq := hm.capacity_eq
  sequence_eq := hm.sequence_eq
  entry := Or.inr ⟨subscription?_drop_self id h, rfl, rfl⟩

theorem Mirrors.drop_of_ne (hm : Mirrors id h m) {other : Nat} (hne : id ≠ other) :
    Mirrors id (h.drop other) m where
  given := hm.given
  capacity_eq := hm.capacity_eq
  sequence_eq := hm.sequence_eq
  entry := by
    rw [subscription?_drop_of_ne hne]
    exact hm.entry

/-- The hub and the mailbox decide alike whether there is room for an event. -/
theorem Mirrors.broadcast (hm : Mirrors id h m) (topic data : String) :
    Mirrors id (h.broadcast topic data).2 (m.step (.broadcast topic data)) where
  given := hm.given
  capacity_eq := hm.capacity_eq
  sequence_eq := congrArg (· + 1) hm.sequence_eq
  entry := by
    rw [subscription?_broadcast]
    rcases hm.entry with hentry | ⟨hentry, hregistered, hqueue⟩
    · refine Or.inl ?_
      rw [hentry, Option.map_some, offer_eq, ← hm.capacity_eq, ← hm.sequence_eq]
      rfl
    · refine Or.inr ⟨?_, hregistered, ?_⟩
      · rw [hentry, Option.map_none]
      · simpa [Mailbox.step, Mailbox.takes, hregistered] using hqueue

theorem Mirrors.receive_self (hm : Mirrors id h m) :
    Mirrors id (h.receive id).2 (m.step .receive) where
  given := by
    rw [subscribed_receive]
    exact hm.given
  capacity_eq := by
    rw [config_receive]
    exact hm.capacity_eq
  sequence_eq := by
    rw [sequence_receive]
    exact hm.sequence_eq
  entry := by
    rw [subscription?_receive]
    rcases hm.entry with hentry | ⟨hentry, hregistered, hqueue⟩
    · refine Or.inl ?_
      rw [hentry, Option.map_some, if_pos rfl]
      rfl
    · refine Or.inr ⟨?_, hregistered, ?_⟩
      · rw [hentry, Option.map_none]
      · exact congrArg List.tail hqueue

theorem Mirrors.receive_of_ne (hm : Mirrors id h m) {other : Nat} (hne : id ≠ other) :
    Mirrors id (h.receive other).2 m where
  given := by
    rw [subscribed_receive]
    exact hm.given
  capacity_eq := by
    rw [config_receive]
    exact hm.capacity_eq
  sequence_eq := by
    rw [sequence_receive]
    exact hm.sequence_eq
  entry := by
    rw [subscription?_receive]
    simp only [if_neg hne, Option.map_id']
    exact hm.entry

/-- Who receives gets the oldest event of its mailbox. -/
theorem Mirrors.receive_fst (hm : Mirrors id h m) : (h.receive id).1 = m.queue.head? := by
  rw [Hub.receive_fst]
  rcases hm.entry with hentry | ⟨hentry, -, hqueue⟩
  · rw [hentry, Option.bind_some]
  · rw [hentry, hqueue]
    rfl

theorem eq_of_ite_some {other : Nat} {own turn : Mailbox.Turn}
    (hif : (if other = id then some own else none) = some turn) : other = id ∧ own = turn := by
  by_cases hid : other = id
  · rw [if_pos hid] at hif
    exact ⟨hid, Option.some.inj hif⟩
  · rw [if_neg hid] at hif
    exact absurd hif (by simp)

theorem ne_of_ite_none {other : Nat} {own : Mailbox.Turn}
    (hif : (if other = id then some own else none) = none) : id ≠ other := by
  rintro rfl
  simp at hif

/-- A call that is nothing to a subscriber leaves its mailbox alone. -/
theorem Mirrors.step_of_none {op : Op} (hm : Mirrors id h m) (hturn : op.turn? id = none) :
    Mirrors id (h.step op) m := by
  cases op with
  | subscribe filter => exact hm.subscribe filter
  | unsubscribe other => exact hm.unsubscribe_of_ne (ne_of_ite_none hturn)
  | drop other => exact hm.drop_of_ne (ne_of_ite_none hturn)
  | broadcast topic data => simp [Op.turn?] at hturn
  | receive other => exact hm.receive_of_ne (ne_of_ite_none hturn)

/-- A call does to the entry of a subscriber what its turn does to the mailbox. -/
theorem Mirrors.step_of_some {op : Op} {turn : Mailbox.Turn} (hm : Mirrors id h m)
    (hturn : op.turn? id = some turn) : Mirrors id (h.step op) (m.step turn) := by
  cases op with
  | subscribe filter => simp [Op.turn?] at hturn
  | unsubscribe other =>
      obtain ⟨rfl, rfl⟩ := eq_of_ite_some hturn
      exact hm.unsubscribe_self
  | drop other =>
      obtain ⟨rfl, rfl⟩ := eq_of_ite_some hturn
      exact hm.drop_self
  | broadcast topic data =>
      simp only [Op.turn?, Option.some.injEq] at hturn
      subst hturn
      exact hm.broadcast topic data
  | receive other =>
      obtain ⟨rfl, rfl⟩ := eq_of_ite_some hturn
      exact hm.receive_self

/-- A call that is nothing to a subscriber answers it nothing. -/
theorem answer_of_none {op : Op} (hturn : op.turn? id = none) : h.answer id op = [] := by
  cases op with
  | receive other =>
      have hid : other ≠ id := by
        rintro rfl
        simp [Op.turn?] at hturn
      rw [answer, if_neg hid]
  | _ => rfl

/-- A call is answered as its turn is. -/
theorem Mirrors.answer_of_some {op : Op} {turn : Mailbox.Turn} (hm : Mirrors id h m)
    (hturn : op.turn? id = some turn) : h.answer id op = m.answer turn := by
  cases op with
  | subscribe filter => simp [Op.turn?] at hturn
  | broadcast topic data =>
      simp only [Op.turn?, Option.some.injEq] at hturn
      subst hturn
      rfl
  | unsubscribe other =>
      obtain ⟨rfl, rfl⟩ := eq_of_ite_some hturn
      rfl
  | drop other =>
      obtain ⟨rfl, rfl⟩ := eq_of_ite_some hturn
      rfl
  | receive other =>
      obtain ⟨rfl, rfl⟩ := eq_of_ite_some hturn
      rw [answer, if_pos rfl, hm.receive_fst]
      rfl

/-- The calls of others apart, the hub answers as the mailbox does. -/
theorem Mirrors.answers_eq (hm : Mirrors id h m) (ops : List Op) :
    h.answers id ops = m.answers (ops.filterMap (Op.turn? id)) := by
  induction ops generalizing h m with
  | nil => rfl
  | cons op ops ih =>
      cases hturn : op.turn? id with
      | none =>
          rw [answers, answer_of_none hturn, List.nil_append, List.filterMap_cons_none hturn]
          exact ih (hm.step_of_none hturn)
      | some turn =>
          rw [answers, hm.answer_of_some hturn, List.filterMap_cons_some hturn, Mailbox.answers]
          rw [ih (hm.step_of_some hturn)]

/-! ## What a subscriber receives -/

/-- What was broadcast last is the newest event that is retained. -/
theorem Records.getLast?_broadcast (hrec : Records config sent h) (topic data : String) :
    (h.broadcast topic data).2.history.toList.getLast? = some ⟨h.sequence + 1, topic, data⟩ := by
  have hroom : 1 ≤ max config.ringCapacity 1 := Nat.le_max_right _ _
  rw [(hrec.broadcast topic data).retained, List.rtake, List.getLast?_drop]
  have hlong : ¬ (sent ++ [(⟨h.sequence + 1, topic, data⟩ : Event)]).length ≤
      (sent ++ [(⟨h.sequence + 1, topic, data⟩ : Event)]).length - max config.ringCapacity 1 := by
    simp only [List.length_append, List.length_singleton]
    omega
  rw [if_neg hlong, List.getLast?_concat]

/-- What a mailbox takes of the calls of a run was broadcast in it, under the number that the
hub gave it. -/
theorem Mirrors.exists_broadcast_of_mem_taken (hm : Mirrors id h m) {ops : List Op} {e : Event}
    (he : e ∈ m.taken (ops.filterMap (Op.turn? id))) :
    ∃ first second, ops = first ++ .broadcast e.topic e.data :: second ∧
      (h.run first).sequence + 1 = e.sequence := by
  induction ops generalizing h m with
  | nil => simp [Mailbox.taken] at he
  | cons op ops ih =>
      cases hturn : op.turn? id with
      | none =>
          rw [List.filterMap_cons_none hturn] at he
          obtain ⟨first, second, rfl, hsequence⟩ := ih (hm.step_of_none hturn) he
          exact ⟨op :: first, second, rfl, hsequence⟩
      | some turn =>
          rw [List.filterMap_cons_some hturn] at he
          have hlater : e ∈ (m.step turn).taken (ops.filterMap (Op.turn? id)) →
              ∃ first second, op :: ops = first ++ .broadcast e.topic e.data :: second ∧
                (h.run first).sequence + 1 = e.sequence := by
            intro he
            obtain ⟨first, second, rfl, hsequence⟩ := ih (hm.step_of_some hturn) he
            exact ⟨op :: first, second, rfl, hsequence⟩
          cases turn with
          | unsubscribe => exact hlater he
          | drop => exact hlater he
          | receive => exact hlater he
          | broadcast topic data =>
              have hop : op = .broadcast topic data := by
                cases op with
                | broadcast _ _ => simpa [Op.turn?] using hturn
                | subscribe _ => simp [Op.turn?] at hturn
                | unsubscribe _ => simpa using (eq_of_ite_some hturn).2
                | drop _ => simpa using (eq_of_ite_some hturn).2
                | receive _ => simpa using (eq_of_ite_some hturn).2
              rw [Mailbox.taken] at he
              split at he
              · rcases List.mem_cons.1 he with rfl | he
                · refine ⟨[], ops, by rw [hop]; rfl, ?_⟩
                  exact congrArg (· + 1) hm.sequence_eq.symm
                · exact hlater he
              · exact hlater he

/-- Every subscriber receives what it would receive of a private queue: its answers are those of
a mailbox that sees the broadcasts and the subscriber's own calls, and nothing else.  So its
events ascend, each of them was broadcast and recorded as it is received, and in two
runs with the same broadcasts and the same own calls it is answered alike. -/
theorem private_queue_delivery (config : Config) (filter : Topic.Filter) (before after : List Op) :
    let h := ((ofConfig config).run before).subscribe filter
    let got := h.2.answers h.1 after
    let mailbox := Mailbox.fresh filter (max config.subscriberCapacity 1) (events 0 before).length
    got = mailbox.answers (after.filterMap (Op.turn? h.1)) ∧
      got.reduceOption.Pairwise (·.sequence < ·.sequence) ∧
      (∀ e ∈ got.reduceOption, ∃ first second,
        after = first ++ .broadcast e.topic e.data :: second ∧
          ((h.2.run first).broadcast e.topic e.data).1 = e.sequence ∧
          ((h.2.run first).broadcast e.topic e.data).2.history.toList.getLast? = some e) ∧
      ∀ before' after' : List Op,
        let h' := ((ofConfig config).run before').subscribe filter
        events 0 before' = events 0 before →
        after'.filterMap (Op.turn? h'.1) = after.filterMap (Op.turn? h.1) →
          h'.2.answers h'.1 after' = got := by
  intro h got mailbox
  have hrec := Records.of_run config before
  have hmirrors := hrec.mirrors_subscribe filter
  have hgot : got = _ := hmirrors.answers_eq after
  have hfront := Mailbox.received_prefix mailbox (after.filterMap (Op.turn? h.1))
  rw [← hgot] at hfront
  refine ⟨hgot, ?_, ?_, ?_⟩
  · exact (Mailbox.taken_ascending _ _).1.sublist hfront.sublist
  · intro e he
    have htaken := hfront.subset he
    obtain ⟨first, second, hafter, hsequence⟩ := hmirrors.exists_broadcast_of_mem_taken htaken
    refine ⟨first, second, hafter, hsequence, ?_⟩
    rw [((hrec.subscribe filter).run first).getLast?_broadcast e.topic e.data, hsequence]
  · intro before' after' h' hbefore hafter
    have hmirrors' := (Records.of_run config before').mirrors_subscribe filter
    rw [hmirrors'.answers_eq, hafter, hbefore, hgot]

/-- Others come, go, and let their queues run over; a subscriber is answered as if it were alone.
With room for two events it misses the third one that waits for it, and with room for none it has
the room for one that every queue has. -/
theorem delivery_beside_others :
    let filter : Topic.Filter := ⟨["a.*", "c"]⟩
    let own : List Op :=
      [.broadcast "a.x" "1", .broadcast "b" "2", .broadcast "c" "3", .broadcast "a.y" "4",
        .receive 1, .receive 1, .receive 1, .broadcast "c" "5", .unsubscribe 1,
        .broadcast "c" "6", .receive 1, .receive 1]
    let crowded : List Op :=
      [.broadcast "a.x" "1", .drop 1, .broadcast "b" "2", .broadcast "c" "3",
        .broadcast "a.y" "4", .receive 2, .subscribe .everything, .receive 2, .receive 2,
        .broadcast "c" "5", .receive 3, .unsubscribe 2, .drop 3, .broadcast "c" "6", .receive 2,
        .receive 2]
    let two := (ofConfig ⟨8, 2⟩).subscribe filter
    let least := (ofConfig ⟨8, 0⟩).subscribe filter
    let beside := ((ofConfig ⟨8, 2⟩).run [.subscribe .everything]).subscribe filter
    two.2.answers two.1 own =
        [some ⟨1, "a.x", "1"⟩, some ⟨3, "c", "3"⟩, none, some ⟨5, "c", "5"⟩, none] ∧
      least.2.answers least.1 own =
        [some ⟨1, "a.x", "1"⟩, none, none, some ⟨5, "c", "5"⟩, none] ∧
      beside.2.answers beside.1 crowded = two.2.answers two.1 own := by
  intro filter own crowded two least beside
  have htwo := private_queue_delivery ⟨8, 2⟩ filter [] own
  have hnone := private_queue_delivery ⟨8, 0⟩ filter [] own
  exact ⟨htwo.1.trans (by decide), hnone.1.trans (by decide),
    htwo.2.2.2 [.subscribe .everything] crowded rfl rfl⟩

end Hub

end IssueTracker
