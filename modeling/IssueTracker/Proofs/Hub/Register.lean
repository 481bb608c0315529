/-
  IssueTracker/Proofs/Hub/Register.lean --- who is registered with the hub.

  `roster_step` says what a call does to the registered subscribers: it takes out whom it
  removes, and puts in whom it registers.  Numbers ascend and are given once, so a removal
  that comes late finds nobody in the place of the one that it means (`Enrolled`).

  A subscriber that left may still hold its handle, and there is an entry for it until the
  handle goes away.  `live` is the hub without these entries: calls do to it what they do to
  the hub (`live_run`), so the handle that goes away at last leaves no trace.
-/
import IssueTracker.Proofs.Hub.Run

set_option autoImplicit false

namespace IssueTracker

namespace Hub

variable {config : Config} {h h' : Hub} {id : Nat} {filter : Topic.Filter}

/-! ## The registered subscribers -/

/-- The registered subscribers by number, each with its filter. -/
def roster (h : Hub) : List (Nat × Topic.Filter) := h.registered.map fun s => (s.id, s.filter)

/-- Does a call take this subscriber out? -/
def Op.removes (id : Nat) : Op → Bool
  | unsubscribe other => id == other
  | drop other => id == other
  | _ => false

/-- Whom a call registers, by the number that it gives back. -/
def Op.newcomer? (h : Hub) : Op → Option (Nat × Topic.Filter)
  | subscribe filter => some ((h.subscribe filter).1, filter)
  | _ => none

theorem registered_subscribe (filter : Topic.Filter) (h : Hub) :
    (h.subscribe filter).2.registered =
      h.registered ++ [⟨h.subscribed + 1, filter, true, []⟩] := by
  simp only [registered, subscribe, List.filter_append, List.filter_cons, if_true, List.filter_nil]

theorem registered_drop (id : Nat) (h : Hub) :
    (h.drop id).registered = h.registered.filter (·.id != id) := by
  simp only [registered, drop, List.filter_filter, Bool.and_comm]

/-- Who unsubscribes is taken out as if the handle were dropped. -/
theorem registered_unsubscribe (id : Nat) (h : Hub) :
    (h.unsubscribe id).registered = h.registered.filter (·.id != id) := by
  simp only [registered, unsubscribe]
  induction h.subscriptions with
  | nil => rfl
  | cons s ss ih =>
      rw [List.map_cons, List.filter_cons, List.filter_cons, ih]
      by_cases hid : s.id = id
      · cases hs : s.registered <;> simp [hid, Subscription.leave]
      · cases hs : s.registered <;> simp [hid, hs]

/-- Changes that keep registrations can as well be made on the registered alone. -/
theorem filter_registered_map {f : Subscription → Subscription}
    (hsame : ∀ s, (f s).registered = s.registered) (ss : List Subscription) :
    (ss.map f).filter (·.registered) = (ss.filter (·.registered)).map f := by
  rw [List.filter_map]
  congr 2
  funext s
  exact hsame s

theorem registered_broadcast (topic data : String) (h : Hub) :
    (h.broadcast topic data).2.registered =
      h.registered.map (·.offer h.config.queueCapacity ⟨h.sequence + 1, topic, data⟩) := by
  refine filter_registered_map (fun s => ?_) h.subscriptions
  rw [offer_eq]

theorem subscriptions_receive (id : Nat) (h : Hub) :
    (h.receive id).2.subscriptions =
      h.subscriptions.map fun s => if s.id = id then s.pop else s := by
  unfold receive
  cases hfound : h.subscription? id with
  | some s => rfl
  | none =>
      have hother : ∀ s ∈ h.subscriptions, s.id ≠ id := by
        simpa [subscription?, List.find?_eq_none] using hfound
      symm
      exact (List.map_congr_left fun s hs => if_neg (hother s hs)).trans (List.map_id' _)

theorem registered_receive (id : Nat) (h : Hub) :
    (h.receive id).2.registered = h.registered.map fun s => if s.id = id then s.pop else s := by
  rw [registered, subscriptions_receive]
  exact filter_registered_map (by intro s; split <;> rfl) h.subscriptions

/-- Changes that keep numbers and filters keep the roster. -/
theorem roster_of_map {f : Subscription → Subscription}
    (hsame : ∀ s, (f s).id = s.id ∧ (f s).filter = s.filter)
    (hmap : h'.registered = h.registered.map f) : h'.roster = h.roster := by
  simp only [roster, hmap, List.map_map]
  exact List.map_congr_left fun s _ => Prod.ext (hsame s).1 (hsame s).2

theorem roster_of_filter (hfilter : h'.registered = h.registered.filter (·.id != id)) :
    h'.roster = h.roster.filter (·.1 != id) := by
  rw [roster, hfilter, roster, List.filter_map]
  rfl

/-- A call takes out whom it removes, and puts in whom it registers. -/
theorem roster_step (h : Hub) (op : Op) :
    (h.step op).roster =
      h.roster.filter (fun entry => !op.removes entry.1) ++ (op.newcomer? h).toList := by
  have hnone : ∀ entries : List (Nat × Topic.Filter),
      entries = entries.filter (fun _ => !false) := fun entries => (List.filter_true entries).symm
  cases op with
  | subscribe filter =>
      rw [roster, step, registered_subscribe, List.map_append]
      exact congrArg (· ++ _) (hnone _)
  | unsubscribe id =>
      exact (roster_of_filter (registered_unsubscribe id h)).trans (List.append_nil _).symm
  | drop id =>
      exact (roster_of_filter (registered_drop id h)).trans (List.append_nil _).symm
  | broadcast topic data =>
      refine Eq.trans ?_ ((hnone _).trans (List.append_nil _).symm)
      refine roster_of_map (fun s => ?_) (registered_broadcast topic data h)
      rw [offer_eq]
      exact ⟨rfl, rfl⟩
  | receive id =>
      refine Eq.trans ?_ ((hnone _).trans (List.append_nil _).symm)
      refine roster_of_map (fun s => ?_) (registered_receive id h)
      split <;> exact ⟨rfl, rfl⟩

/-- A call gives at most one number, the next one. -/
theorem subscribed_step (h : Hub) (op : Op) :
    (h.step op).subscribed = h.subscribed + (op.newcomer? h).toList.length := by
  cases op with
  | subscribe filter => rfl
  | receive id => exact subscribed_receive id h
  | _ => rfl

theorem newcomer?_eq_some {op : Op} {entry : Nat × Topic.Filter}
    (hentry : op.newcomer? h = some entry) :
    op = .subscribe entry.2 ∧ entry.1 = h.subscribed + 1 := by
  cases op with
  | subscribe filter =>
      obtain rfl := Option.some.inj hentry
      exact ⟨rfl, rfl⟩
  | _ => exact absurd hentry (by simp [Op.newcomer?])

/-! ## Numbers -/

/-- The filter under which a call registers somebody. -/
def Op.filter? : Op → Option Topic.Filter
  | subscribe filter => some filter
  | _ => none

/-- The filters of all calls that register somebody, in their order. -/
def filters (ops : List Op) : List Topic.Filter := ops.filterMap Op.filter?

/-- Whom calls register, by the numbers that they give back. -/
def entries (h : Hub) : List Op → List (Nat × Topic.Filter)
  | [] => []
  | op :: ops => (op.newcomer? h).toList ++ (h.step op).entries ops

/-- Numbers are given one after the other. -/
theorem entries_eq (h : Hub) (ops : List Op) :
    h.entries ops = (filters ops).mapIdx fun i filter => (h.subscribed + i + 1, filter) := by
  induction ops generalizing h with
  | nil => rfl
  | cons op ops ih =>
      have hnext := subscribed_step h op
      cases op with
      | subscribe filter =>
          have hshift : ∀ i, h.subscribed + 1 + i + 1 = h.subscribed + (i + 1) + 1 := by omega
          have hfilters : filters (.subscribe filter :: ops) = filter :: filters ops := rfl
          have hnumber : (h.step (.subscribe filter)).subscribed = h.subscribed + 1 := hnext
          rw [hfilters, List.mapIdx_cons, entries, ih, hnumber]
          simp only [hshift, Nat.add_zero]
          rfl
      | _ =>
          refine (ih _).trans ?_
          rw [hnext]
          rfl

/-- The registered subscribers ascend, and their numbers were all given. -/
structure Enrolled (h : Hub) : Prop where
  ascending : h.roster.Pairwise (·.1 < ·.1)
  given : ∀ entry ∈ h.roster, entry.1 ≤ h.subscribed

theorem Enrolled.ofConfig (config : Config) : Enrolled (ofConfig config) where
  ascending := List.Pairwise.nil
  given _ hentry := absurd hentry List.not_mem_nil

theorem Enrolled.step (hroll : Enrolled h) (op : Op) : Enrolled (h.step op) where
  ascending := by
    rw [roster_step, List.pairwise_append]
    refine ⟨hroll.ascending.filter _, ?_, ?_⟩
    · cases op.newcomer? h with
      | none => exact List.Pairwise.nil
      | some entry => exact List.pairwise_singleton _ entry
    · intro old hold new hnew
      have hgiven := hroll.given old (List.mem_filter.1 hold).1
      have hnext := (newcomer?_eq_some (Option.mem_toList.1 hnew)).2
      omega
  given entry hentry := by
    rw [roster_step] at hentry
    rw [subscribed_step]
    rcases List.mem_append.1 hentry with hold | hnew
    · exact Nat.le_add_right_of_le (hroll.given entry (List.mem_filter.1 hold).1)
    · have hnext := (newcomer?_eq_some (Option.mem_toList.1 hnew)).2
      have hlength := List.length_pos_of_mem hnew
      omega

theorem Enrolled.run (hroll : Enrolled h) (ops : List Op) : Enrolled (h.run ops) := by
  induction ops generalizing h with
  | nil => exact hroll
  | cons op ops ih => exact ih (hroll.step op)

/-! ## Who stands -/

/-- A call of the run registered this subscriber, and no call behind it took it out. -/
def Stands (config : Config) (ops : List Op) (id : Nat) (filter : Topic.Filter) : Prop :=
  ∃ first second, ops = first ++ .subscribe filter :: second ∧
    (((ofConfig config).run first).subscribe filter).1 = id ∧
    ∀ op ∈ second, op.removes id = false

theorem stands_concat {ops : List Op} {op : Op} :
    Stands config (ops ++ [op]) id filter ↔
      Stands config ops id filter ∧ op.removes id = false ∨
        op.newcomer? ((ofConfig config).run ops) = some (id, filter) := by
  constructor
  · rintro ⟨first, second, hops, hid, hstays⟩
    rcases List.eq_nil_or_concat second with rfl | ⟨second, last, rfl⟩
    · obtain ⟨rfl, hop⟩ := List.append_inj' hops rfl
      obtain rfl : op = .subscribe filter := by simpa using hop
      refine Or.inr ?_
      rw [Op.newcomer?, hid]
    · rw [List.concat_eq_append, ← List.cons_append, ← List.append_assoc] at hops
      obtain ⟨hfront, hop⟩ := List.append_inj' hops rfl
      obtain rfl : op = last := by simpa using hop
      refine Or.inl ⟨⟨first, second, hfront, hid, fun op' hop' => hstays op' ?_⟩, hstays op ?_⟩
      · simp [hop']
      · simp
  · rintro (⟨⟨first, second, rfl, hid, hstays⟩, hop⟩ | hentry)
    · refine ⟨first, second ++ [op], by simp, hid, fun op' hop' => ?_⟩
      rcases List.mem_append.1 hop' with hop' | hop'
      · exact hstays op' hop'
      · rw [List.mem_singleton.1 hop']
        exact hop
    · obtain ⟨rfl, hid⟩ := newcomer?_eq_some hentry
      exact ⟨ops, [], rfl, hid.symm, fun op' hop' => absurd hop' List.not_mem_nil⟩

theorem mem_roster_run {ops : List Op} :
    (id, filter) ∈ ((ofConfig config).run ops).roster ↔ Stands config ops id filter := by
  induction ops using List.reverseRecOn with
  | nil =>
      constructor
      · intro hentry
        exact absurd hentry List.not_mem_nil
      · rintro ⟨first, second, hops, -⟩
        exact absurd hops.symm (by simp)
  | append_singleton ops op ih =>
      rw [run_append, stands_concat, ← ih]
      simp only [run, roster_step, List.mem_append, List.mem_filter, Option.mem_toList,
        Bool.not_eq_true']

/-! ## Handles of those that left -/

/-- The hub without the entries of those that left. -/
def live (h : Hub) : Hub := { h with subscriptions := h.registered }

@[simp] theorem registered_live (h : Hub) : h.live.registered = h.registered := by
  simp only [registered, live, List.filter_filter, Bool.and_self]

@[simp] theorem statistics_live (h : Hub) : h.live.statistics = h.statistics := by
  rw [statistics, subscriberCount, registered_live]
  rfl

theorem live_congr (hconfig : h.config = h'.config) (hsequence : h.sequence = h'.sequence)
    (hhistory : h.history = h'.history) (hsubscribed : h.subscribed = h'.subscribed)
    (hregistered : h.registered = h'.registered) : h.live = h'.live := by
  simp only [live, hconfig, hsequence, hhistory, hsubscribed, hregistered]

/-- What a call makes of the hub does not depend on the entries of those that left. -/
theorem live_step (h : Hub) (op : Op) : (h.live.step op).live = (h.step op).live := by
  cases op with
  | subscribe filter =>
      refine live_congr rfl rfl rfl rfl ?_
      rw [step, step, registered_subscribe, registered_subscribe, registered_live]
      rfl
  | unsubscribe id =>
      refine live_congr rfl rfl rfl rfl ?_
      rw [step, step, registered_unsubscribe, registered_unsubscribe, registered_live]
  | drop id =>
      refine live_congr rfl rfl rfl rfl ?_
      rw [step, step, registered_drop, registered_drop, registered_live]
  | broadcast topic data =>
      refine live_congr rfl rfl rfl rfl ?_
      rw [step, step, registered_broadcast, registered_broadcast, registered_live]
      rfl
  | receive id =>
      refine live_congr ?_ ?_ ?_ ?_ ?_
      · rw [step, step, config_receive, config_receive, live]
      · rw [step, step, sequence_receive, sequence_receive, live]
      · rw [step, step, history_receive, history_receive, live]
      · rw [step, step, subscribed_receive, subscribed_receive, live]
      · rw [step, step, registered_receive, registered_receive, registered_live]

theorem live_run (h : Hub) (ops : List Op) : (h.live.run ops).live = (h.run ops).live := by
  induction ops generalizing h with
  | nil => exact live_congr rfl rfl rfl rfl (registered_live h)
  | cons op ops ih => rw [run, run, ← ih, live_step, ih]

/-! ## Removals -/

theorem eq_of_removes {op : Op} (hop : op.removes id) : op = .unsubscribe id ∨ op = .drop id := by
  cases op with
  | unsubscribe other => exact Or.inl (congrArg Op.unsubscribe (eq_of_beq hop).symm)
  | drop other => exact Or.inr (congrArg Op.drop (eq_of_beq hop).symm)
  | _ => exact absurd hop Bool.false_ne_true

theorem roster_step_of_removes {op : Op} (hop : op.removes id) (h : Hub) :
    (h.step op).roster = h.roster.filter (·.1 != id) := by
  rcases eq_of_removes hop with rfl | rfl
  · exact roster_of_filter (registered_unsubscribe id h)
  · exact roster_of_filter (registered_drop id h)

theorem subscription?_step_of_removes {op : Op} (hop : op.removes id) {other : Nat}
    (hne : other ≠ id) : (h.step op).subscription? other = h.subscription? other := by
  rcases eq_of_removes hop with rfl | rfl
  · rw [step, subscription?_unsubscribe]
    simp only [if_neg hne, Option.map_id']
  · exact subscription?_drop_of_ne hne

/-- To unsubscribe who is not registered changes nothing at all. -/
theorem unsubscribe_of_absent (habsent : ∀ s ∈ h.registered, s.id ≠ id) : h.unsubscribe id = h := by
  have hsame : ∀ s ∈ h.subscriptions, (if s.id = id then s.leave else s) = s := by
    intro s hs
    split
    · next hid =>
      have hleft : s.registered = false := by
        cases hreg : s.registered with
        | false => rfl
        | true => exact absurd hid (habsent s (List.mem_filter.2 ⟨hs, hreg⟩))
      rw [Subscription.leave, ← hleft]
    · rfl
  have hmap := (List.map_congr_left hsame).trans (List.map_id' _)
  exact congrArg (fun subscriptions => { h with subscriptions }) hmap

theorem live_step_of_absent (habsent : ∀ s ∈ h.registered, s.id ≠ id) {op : Op}
    (hop : op.removes id) : (h.step op).live = h.live := by
  rcases eq_of_removes hop with rfl | rfl
  · exact congrArg live (unsubscribe_of_absent habsent)
  · refine live_congr rfl rfl rfl rfl ?_
    rw [step, registered_drop, List.filter_eq_self]
    intro s hs
    simpa using habsent s hs

/-- The register is exact.  The subscribers of a run are numbered from one, whoever comes and
goes.  Those that are told of, in the order of their numbers, are the ones that no call took out
after the call that gave them their number and filter.  A removal takes out the one that it names
and nobody else; if that one does not stand, it leaves no trace, whatever is called later. -/
theorem register_is_exact (config : Config) (ops : List Op) :
    let h := (ofConfig config).run ops
    (ofConfig config).entries ops = (filters ops).mapIdx (fun i filter => (i + 1, filter)) ∧
      h.roster.Pairwise (·.1 < ·.1) ∧
      (∀ id filter, (id, filter) ∈ h.roster ↔ Stands config ops id filter) ∧
      h.subscriberCount = h.roster.length ∧
      (∃ front, h.statistics = .object (front ++
        [("subscriber_count", .int h.roster.length),
         ("subscribers", .list (h.roster.map fun entry =>
           .object [("id", .int entry.1),
             ("topics", .list (entry.2.patterns.map .text))]))])) ∧
      ∀ id op, op.removes id →
        (h.step op).roster = h.roster.filter (·.1 != id) ∧
          (∀ other, other ≠ id → (h.step op).subscription? other = h.subscription? other) ∧
          ((∀ filter, ¬ Stands config ops id filter) →
            h.unsubscribe id = h ∧
              ∀ later, ((h.step op).run later).live = (h.run later).live ∧
                ((h.step op).run later).statistics = (h.run later).statistics) := by
  intro h
  have hroll : Enrolled h := (Enrolled.ofConfig config).run ops
  have hcount : h.subscriberCount = h.roster.length := (List.length_map _).symm
  refine ⟨?_, hroll.ascending, fun id filter => mem_roster_run, hcount, ?_, ?_⟩
  · rw [entries_eq]
    simp only [ofConfig, Nat.zero_add]
  · refine ⟨[("last_sequence", .int h.sequence), ("retained", .int h.history.size),
      ("ring_capacity", .int h.history.capacity)], ?_⟩
    rw [statistics, hcount, roster, List.map_map]
    rfl
  · intro id op hop
    refine ⟨roster_step_of_removes hop h, fun other => subscription?_step_of_removes hop, ?_⟩
    intro hstale
    have habsent : ∀ s ∈ h.registered, s.id ≠ id := by
      rintro s hs rfl
      exact hstale s.filter (mem_roster_run.1 (List.mem_map_of_mem hs))
    refine ⟨unsubscribe_of_absent habsent, fun later => ?_⟩
    have hlive : ((h.step op).run later).live = (h.run later).live := by
      rw [← live_run, live_step_of_absent habsent hop, live_run]
    refine ⟨hlive, ?_⟩
    rw [← statistics_live, hlive, statistics_live]

/-- Of three subscribers the first drops its handle and is then removed once more, as is one that
there never was; the second unsubscribes.  Its handle is dropped late: the third stays, and the
next one to come is not touched. -/
theorem late_removals_meet_nobody :
    let ops : List Op :=
      [.subscribe .everything, .subscribe ⟨["a.>"]⟩, .unsubscribe 7, .drop 1,
        .subscribe ⟨["b.*"]⟩, .broadcast "a.b" "", .unsubscribe 1, .unsubscribe 2]
    let h := (ofConfig ⟨2, 1⟩).run ops
    (ofConfig ⟨2, 1⟩).entries ops = [(1, .everything), (2, ⟨["a.>"]⟩), (3, ⟨["b.*"]⟩)] ∧
      h.roster = [(3, ⟨["b.*"]⟩)] ∧
      h.unsubscribe 2 = h ∧
      ((h.drop 2).run [.subscribe .everything]).live = (h.run [.subscribe .everything]).live := by
  intro ops h
  obtain ⟨hentries, -, hmem, -, -, hremoval⟩ := register_is_exact ⟨2, 1⟩ ops
  have hroster : h.roster = [(3, ⟨["b.*"]⟩)] := rfl
  have hstale : ∀ filter, ¬ Stands ⟨2, 1⟩ ops 2 filter := by
    intro filter hstands
    have hentry := (hmem 2 filter).2 hstands
    simp [h, hroster] at hentry
  obtain ⟨hsame, hlater⟩ := (hremoval 2 (.drop 2) rfl).2.2 hstale
  exact ⟨hentries.trans rfl, hroster, hsame, (hlater _).1⟩

end Hub

end IssueTracker
