/-
  IssueTracker/Proofs/Hub/Subscription.lean --- what each call on the hub does to one subscriber.

  The lemmas `subscription?_*` say, for each call, what is found under a number after it.
  A call that names another subscriber leaves what is found as it was, and a broadcast offers
  its event to whoever is found.

  `Records` is what the calls keep of the hub as a whole: what was sent is numbered without
  gaps, the latest of it is retained, and no number is given that was given before.
-/
import IssueTracker.Hub.Basic
import IssueTracker.Proofs.Hub.History
import Mathlib.Data.List.Nodup

set_option autoImplicit false

namespace IssueTracker

namespace Hub

variable {config : Config} {sent : List Event} {h : Hub} {id other : Nat} {s : Subscription}

/-! ## One subscriber -/

/-- What changes entries, but not their numbers, changes what is found. -/
theorem find?_map_of_key {α : Type} (key : α → Nat) {f : α → α} (hkey : ∀ a, key (f a) = key a)
    (k : Nat) (as : List α) :
    (as.map f).find? (key · == k) = (as.find? (key · == k)).map f := by
  have hsame : ((fun a => key a == k) ∘ f) = fun a => key a == k := by
    funext a
    simp only [Function.comp_apply, hkey]
  rw [List.find?_map, hsame]

/-- What changes the entries of one number shows under that number only. -/
theorem find?_map_at {α : Type} (key : α → Nat) (f : α → α) {k : Nat}
    (hkey : ∀ a, key a = k → key (f a) = k) (j : Nat) (as : List α) :
    (as.map fun a => if key a = k then f a else a).find? (key · == j) =
      (as.find? (key · == j)).map fun a => if j = k then f a else a := by
  have hsame : ∀ a, key (if key a = k then f a else a) = key a := by
    intro a
    split
    · rename_i ha
      rw [hkey a ha, ha]
    · rfl
  rw [find?_map_of_key key hsame]
  cases hfound : as.find? (key · == j) with
  | none => rfl
  | some a =>
      have ha : key a = j := by simpa using List.find?_some hfound
      simp only [Option.map_some, ha]

@[simp] theorem subscription?_subscribe_of_ne {filter : Topic.Filter}
    (hne : id ≠ h.subscribed + 1) :
    (h.subscribe filter).2.subscription? id = h.subscription? id := by
  have hlast : (h.subscribed + 1 == id) = false := by simpa using hne.symm
  simp only [subscription?, subscribe, List.find?_append, List.find?_cons, hlast, List.find?_nil,
    Option.or_none]

theorem subscription?_unsubscribe (id other : Nat) (h : Hub) :
    (h.unsubscribe other).subscription? id =
      (h.subscription? id).map fun s => if id = other then s.leave else s := by
  exact find?_map_at Subscription.id Subscription.leave (fun _ hid => hid) id h.subscriptions

theorem subscription?_drop_self (id : Nat) (h : Hub) :
    (h.drop id).subscription? id = none := by
  simp [subscription?, drop]

theorem subscription?_drop_of_ne (hne : id ≠ other) :
    (h.drop other).subscription? id = h.subscription? id := by
  simp only [subscription?, drop, List.find?_filter]
  congr 1
  funext s
  by_cases hid : s.id = id
  · simp [hid, hne]
  · simp [hid]

/-- An offer changes at most the queue. -/
theorem offer_eq (capacity : Nat) (e : Event) (s : Subscription) :
    s.offer capacity e =
      { s with
        queue := if s.registered && s.filter.passes e.topic && s.queue.length < capacity then
            s.queue ++ [e]
          else s.queue } := by
  unfold Subscription.offer
  split <;> rfl

@[simp] theorem id_offer (capacity : Nat) (e : Event) (s : Subscription) :
    (s.offer capacity e).id = s.id := by
  rw [offer_eq]

theorem subscription?_broadcast (id : Nat) (topic data : String) (h : Hub) :
    (h.broadcast topic data).2.subscription? id =
      (h.subscription? id).map (·.offer h.config.queueCapacity ⟨h.sequence + 1, topic, data⟩) := by
  simp only [subscription?, broadcast]
  exact find?_map_of_key Subscription.id (id_offer _ _) id _

@[simp] theorem config_receive (id : Nat) (h : Hub) : (h.receive id).2.config = h.config := by
  unfold receive
  split <;> rfl

@[simp] theorem sequence_receive (id : Nat) (h : Hub) :
    (h.receive id).2.sequence = h.sequence := by
  unfold receive
  split <;> rfl

@[simp] theorem history_receive (id : Nat) (h : Hub) : (h.receive id).2.history = h.history := by
  unfold receive
  split <;> rfl

@[simp] theorem subscribed_receive (id : Nat) (h : Hub) :
    (h.receive id).2.subscribed = h.subscribed := by
  unfold receive
  split <;> rfl

theorem receive_fst (id : Nat) (h : Hub) :
    (h.receive id).1 = (h.subscription? id).bind (·.queue.head?) := by
  unfold receive
  cases h.subscription? id <;> rfl

theorem subscription?_receive (id other : Nat) (h : Hub) :
    (h.receive other).2.subscription? id =
      (h.subscription? id).map fun s => if id = other then s.pop else s := by
  unfold receive
  cases hother : h.subscription? other with
  | none =>
      cases hfound : h.subscription? id with
      | none => rfl
      | some s =>
          have hne : id ≠ other := by
            rintro rfl
            simp [hother] at hfound
          simp only [Option.map_some, if_neg hne]
  | some t =>
      exact find?_map_at Subscription.id Subscription.pop (fun _ hid => hid) id h.subscriptions

/-! ## The hub as a whole -/

/-- The hub of a configuration in which some events were sent. -/
structure Records (config : Config) (sent : List Event) (h : Hub) : Prop where
  config_eq : h.config = config
  /-- Events are numbered from one, without gaps. -/
  numbers : sent.map (·.sequence) = List.range' 1 sent.length
  /-- The number of the latest event is the count of events. -/
  sequence_eq : h.sequence = sent.length
  capacity_eq : h.history.capacity = max config.ringCapacity 1
  /-- The latest events are retained. -/
  retained : h.history.toList = sent.rtake (max config.ringCapacity 1)
  /-- Numbers of subscribers were all given. -/
  given : ∀ s ∈ h.subscriptions, s.id ≤ h.subscribed

theorem Records.ofConfig (config : Config) : Records config [] (ofConfig config) where
  config_eq := rfl
  numbers := rfl
  sequence_eq := rfl
  capacity_eq := rfl
  retained := by simp [Hub.ofConfig]
  given s hs := absurd hs List.not_mem_nil

/-- Calls that send nothing and give no number. -/
theorem Records.of_same (hrec : Records config sent h) {h' : Hub} (hconfig : h'.config = h.config)
    (hsequence : h'.sequence = h.sequence) (hhistory : h'.history = h.history)
    (hsubscribed : h'.subscribed = h.subscribed)
    (hids : ∀ s ∈ h'.subscriptions, ∃ t ∈ h.subscriptions, t.id = s.id) :
    Records config sent h' where
  config_eq := hconfig.trans hrec.config_eq
  numbers := hrec.numbers
  sequence_eq := hsequence.trans hrec.sequence_eq
  capacity_eq := hhistory ▸ hrec.capacity_eq
  retained := hhistory ▸ hrec.retained
  given s hs := by
    obtain ⟨t, ht, hid⟩ := hids s hs
    rw [hsubscribed, ← hid]
    exact hrec.given t ht

/-- Changes of subscribers that keep their numbers. -/
theorem exists_id_of_mem_map {f : Subscription → Subscription} (hid : ∀ s, (f s).id = s.id)
    {ss : List Subscription} (hs : s ∈ ss.map f) : ∃ t ∈ ss, t.id = s.id := by
  obtain ⟨t, ht, rfl⟩ := List.mem_map.1 hs
  exact ⟨t, ht, (hid t).symm⟩

theorem Records.subscribe (hrec : Records config sent h) (filter : Topic.Filter) :
    Records config sent (h.subscribe filter).2 where
  config_eq := hrec.config_eq
  numbers := hrec.numbers
  sequence_eq := hrec.sequence_eq
  capacity_eq := hrec.capacity_eq
  retained := hrec.retained
  given s hs := by
    rcases List.mem_append.1 hs with hs | hs
    · exact Nat.le_succ_of_le (hrec.given s hs)
    · rw [List.mem_singleton.1 hs]
      exact Nat.le_refl _

theorem Records.unsubscribe (hrec : Records config sent h) (id : Nat) :
    Records config sent (h.unsubscribe id) :=
  hrec.of_same rfl rfl rfl rfl fun _ hs =>
    exists_id_of_mem_map (by intro s; split <;> rfl) hs

theorem Records.drop (hrec : Records config sent h) (id : Nat) :
    Records config sent (h.drop id) :=
  hrec.of_same rfl rfl rfl rfl fun s hs => ⟨s, (List.mem_filter.1 hs).1, rfl⟩

theorem Records.receive (hrec : Records config sent h) (id : Nat) :
    Records config sent (h.receive id).2 := by
  refine hrec.of_same (config_receive id h) (sequence_receive id h) (history_receive id h)
    (subscribed_receive id h) ?_
  unfold Hub.receive
  cases h.subscription? id with
  | none => exact fun s hs => ⟨s, hs, rfl⟩
  | some t => exact fun _ hs => exists_id_of_mem_map (by intro s; split <;> rfl) hs

theorem Records.broadcast (hrec : Records config sent h) (topic data : String) :
    Records config (sent ++ [⟨h.sequence + 1, topic, data⟩]) (h.broadcast topic data).2 where
  config_eq := hrec.config_eq
  numbers := by
    rw [List.map_append, hrec.numbers, hrec.sequence_eq, List.length_append, List.length_singleton,
      List.range'_concat]
    simp [Nat.add_comm]
  sequence_eq := by
    simp only [Hub.broadcast, List.length_append, List.length_singleton, hrec.sequence_eq]
  capacity_eq := (History.capacity_append _ _).trans hrec.capacity_eq
  retained := by
    simp only [Hub.broadcast]
    rw [History.toList_append, hrec.retained, hrec.capacity_eq, rtake_rtake_append]
  given s hs := by
    obtain ⟨t, ht, hid⟩ := exists_id_of_mem_map (id_offer _ _) hs
    rw [← hid]
    exact hrec.given t ht

/-- The events of the hub are numbered from one to the latest. -/
theorem Records.sequence_of_mem (hrec : Records config sent h) {e : Event} (he : e ∈ sent) :
    0 < e.sequence ∧ e.sequence ≤ h.sequence := by
  have hmem : e.sequence ∈ sent.map (·.sequence) := List.mem_map_of_mem he
  rw [hrec.numbers, List.mem_range'_1] at hmem
  rw [hrec.sequence_eq]
  omega

/-- The first `k` events have the numbers to `k`. -/
theorem Records.le_of_mem_take (hrec : Records config sent h) {e : Event} {k : Nat}
    (he : e ∈ sent.take k) : e.sequence ≤ k := by
  have hmem : e.sequence ∈ (sent.take k).map (·.sequence) := List.mem_map_of_mem he
  rw [List.map_take, hrec.numbers] at hmem
  obtain ⟨i, hi, hnumber⟩ := List.mem_take_iff_getElem.1 hmem
  rw [List.getElem_range'] at hnumber
  omega

/-- What comes after the first `k` events has greater numbers than `k`. -/
theorem Records.lt_of_mem_drop (hrec : Records config sent h) {e : Event} {k : Nat}
    (he : e ∈ sent.drop k) : k < e.sequence := by
  have hmem : e.sequence ∈ (sent.drop k).map (·.sequence) := List.mem_map_of_mem he
  rw [List.map_drop, hrec.numbers, List.drop_range', List.mem_range'_1] at hmem
  omega

/-- Later events have greater numbers. -/
theorem Records.ascending (hrec : Records config sent h) :
    sent.Pairwise (·.sequence < ·.sequence) := by
  have hnumbers : (sent.map (·.sequence)).Pairwise (· < ·) := by
    rw [hrec.numbers]
    exact List.pairwise_lt_range'
  exact List.pairwise_map.1 hnumbers

/-- No two events have one number. -/
theorem Records.eq_of_sequence_eq (hrec : Records config sent h) {e e' : Event} (he : e ∈ sent)
    (he' : e' ∈ sent) (hsame : e.sequence = e'.sequence) : e = e' := by
  have hnodup : (sent.map (·.sequence)).Nodup := by
    rw [hrec.numbers]
    exact List.nodup_range'
  exact List.inj_on_of_nodup_map hnodup he he' hsame

/-- What is retained was sent. -/
theorem Records.mem_of_mem_history (hrec : Records config sent h) {e : Event}
    (he : e ∈ h.history.toList) : e ∈ sent := by
  rw [hrec.retained] at he
  exact List.mem_of_mem_drop he

/-- An event is retained as long as fewer events came after it than there is room for. -/
theorem Records.mem_history (hrec : Records config sent h) {e : Event} (he : e ∈ sent) :
    e ∈ h.history.toList ↔ h.sequence < e.sequence + max config.ringCapacity 1 := by
  have hpos := (hrec.sequence_of_mem he).1
  rw [hrec.retained, hrec.sequence_eq, List.rtake]
  constructor
  · intro hlate
    have hlt := hrec.lt_of_mem_drop hlate
    omega
  · intro hlt
    rw [← List.take_append_drop (sent.length - max config.ringCapacity 1) sent] at he
    rcases List.mem_append.1 he with hearly | hlate
    · have hle := hrec.le_of_mem_take hearly
      omega
    · exact hlate

/-- The number that is given next was not given yet. -/
theorem Records.subscription?_next (hrec : Records config sent h) :
    h.subscription? (h.subscribed + 1) = none := by
  apply List.find?_eq_none.2
  intro s hs
  have hle := hrec.given s hs
  have hne : s.id ≠ h.subscribed + 1 := by omega
  simpa using hne

/-- A new subscriber starts with an empty queue. -/
theorem Records.subscription?_subscribe (hrec : Records config sent h) (filter : Topic.Filter) :
    (h.subscribe filter).2.subscription? (h.subscribed + 1) =
      some ⟨h.subscribed + 1, filter, true, []⟩ := by
  have hnone := hrec.subscription?_next
  simp only [subscription?] at hnone
  simp only [subscription?, Hub.subscribe, List.find?_append, hnone, Option.none_or,
    List.find?_cons, beq_self_eq_true]

end Hub

end IssueTracker
